/-
A scan and an index find the same documents. On texts that are words of a vocabulary joined by spaces, either
backend finds a document exactly if its words are what the plan asks for: a term is its words in sequence, a
pair is two words with at most so many words between.
-/
import Concordance.Engine.Open
import Concordance.Proofs.Engine.SetAlgebra
import Concordance.Proofs.Vocabulary.Distance
import Concordance.Proofs.Vocabulary.Tokens

namespace Concordance

open Text

/-! ## What words of a document a plan asks for -/

namespace Document

/-- Do the words of a term stand in sequence in the document? -/
def HoldsTerm (d : Document) (t : Term) : Prop := words t.text.toList <:+: words d.text.toList

/-- Does the document hold some primary term, or if the plan combines by AND, all of them? -/
def HoldsPrimary (d : Document) (p : Plan) : Prop :=
  if p.combinator = .or then ∃ t ∈ p.primary, d.HoldsTerm t else p.primary ≠ [] ∧ ∀ t ∈ p.primary, d.HoldsTerm t

/-- Do the two words of a pair stand close together in the document, in either order? -/
def HoldsPair (d : Document) (pair : ProximityPair) : Prop :=
  ∃ i j, (words d.text.toList)[i]? = some pair.first.text.toList ∧
    (words d.text.toList)[j]? = some pair.second.text.toList ∧
    j ≤ i + 1 + pair.maxWords.toNat ∧ i ≤ j + 1 + pair.maxWords.toNat

/-- Does the document hold the primary terms and no exclusion, or a pair? -/
def Satisfies (d : Document) (p : Plan) : Prop :=
  (d.HoldsPrimary p ∧ ∀ t ∈ p.exclusions, ¬ d.HoldsTerm t) ∨ ∃ pair ∈ p.proximity, d.HoldsPair pair

end Document

namespace Vocabulary

variable (V : Vocabulary)

/-- Is a text words of the vocabulary joined by single spaces? -/
def Writes (s : String) : Prop := ∃ ws, V.All ws ∧ s.toList = joinWith [' '] ws

/-- Is a term a word of the vocabulary, quoted or not, or a quoted phrase of one word or more? -/
def IsTerm (t : Term) : Prop :=
  t.text.toList ∈ V.words ∨ t.quoted = true ∧ ∃ ws, ws ≠ [] ∧ V.All ws ∧ t.text.toList = joinWith [' '] ws

/-- Does a pair ask for two different words of the vocabulary, quoted or not? -/
structure IsPair (pair : ProximityPair) : Prop where
  first : pair.first.text.toList ∈ V.words
  second : pair.second.text.toList ∈ V.words
  different : pair.first.text ≠ pair.second.text

/-- Does a plan ask for terms and pairs of the vocabulary? -/
structure Covers (p : Plan) : Prop where
  primary : ∀ t ∈ p.primary, V.IsTerm t
  exclusions : ∀ t ∈ p.exclusions, V.IsTerm t
  proximity : ∀ pair ∈ p.proximity, V.IsPair pair

/-- Are the texts of documents words of the vocabulary, and their filenames distinct? -/
structure Fills (documents : List Document) : Prop where
  texts : ∀ d ∈ documents, V.Writes d.text
  filenames : (documents.map (·.filename)).Nodup

variable {V} {documents : List Document} {s : String} {t : Term}

theorem Writes.all_words (h : V.Writes s) : V.All (Text.words s.toList) := by
  obtain ⟨ws, hw, hs⟩ := h
  rw [hs, hw.words_joinWith]
  exact hw

theorem Writes.joinWith_words (h : V.Writes s) : joinWith [' '] (Text.words s.toList) = s.toList := by
  obtain ⟨ws, hw, hs⟩ := h
  rw [hs, hw.words_joinWith]

theorem Writes.terms (h : V.Writes s) : Index.terms s.toList = (Text.words s.toList).map termOf := by
  rw [← h.all_words.terms_joinWith, h.joinWith_words]

theorem Writes.not_nul (h : V.Writes s) : '\x00' ∉ s.toList := by
  intro hm
  rw [← h.joinWith_words] at hm
  rcases h.all_words.mem_joinWith hm with he | hl
  · cases he
  · cases hl

theorem writes_of_mem (h : s.toList ∈ V.words) : V.Writes s :=
  ⟨[s.toList], fun _ hw => List.mem_singleton.1 hw ▸ h, rfl⟩

theorem words_of_mem (h : s.toList ∈ V.words) : Text.words s.toList = [s.toList] := by
  have alone : V.All [s.toList] := fun _ hw => List.mem_singleton.1 hw ▸ h
  exact alone.words_joinWith

theorem IsTerm.writes (h : V.IsTerm t) : V.Writes t.text := by
  rcases h with h | ⟨-, ws, -, hw, ht⟩
  · exact writes_of_mem h
  · exact ⟨ws, hw, ht⟩

theorem IsTerm.words_ne_nil (h : V.IsTerm t) : Text.words t.text.toList ≠ [] := by
  rcases h with h | ⟨-, ws, hne, hw, ht⟩
  · rw [words_of_mem h]
    exact List.cons_ne_nil _ _
  · rwa [ht, hw.words_joinWith]

/-- A term of the vocabulary is one symbol of an expression. -/
theorem IsTerm.exists_symbolsOf (h : V.IsTerm t) :
    ∃ symbol, Index.symbolsOf t = [symbol] ∧ symbol.text = t.text.toList := by
  unfold Index.symbolsOf
  split
  · exact ⟨.string t.text.toList, rfl, rfl⟩
  · rename_i bare
    have word : t.text.toList ∈ V.words := h.resolve_right fun hq => bare hq.1
    rw [words_of_mem word]
    exact ⟨.ofText t.text.toList, rfl, Index.text_ofText _⟩

/-- Documents of one filename are one document. -/
theorem Fills.eq (h : V.Fills documents) {d d' : Document} (hd : d ∈ documents) (hd' : d' ∈ documents)
    (he : d.filename = d'.filename) : d = d' :=
  List.inj_on_of_nodup_map h.filenames hd hd' he

end Vocabulary

/-! ## Backends that find what is asked for -/

/-- Does a backend find the documents that hold terms, primary terms together, and pairs? -/
structure Backend.Finds (b : Backend) (V : Vocabulary) (documents : List Document) : Prop where
  term : ∀ {t}, V.IsTerm t → ∀ f, f ∈ filesOf (b.search t) ↔ ∃ d ∈ documents, d.filename = f ∧ d.HoldsTerm t
  primary : ∀ {p}, V.Covers p → ∀ f,
    f ∈ filesOf (b.primaryHits p) ↔ ∃ d ∈ documents, d.filename = f ∧ d.HoldsPrimary p
  pair : ∀ {pair}, V.IsPair pair → ∀ f,
    f ∈ filesOf (b.pairHits pair) ↔ ∃ d ∈ documents, d.filename = f ∧ d.HoldsPair pair

section

variable {V : Vocabulary} {documents : List Document}

/-- Such a backend finds the documents that satisfy a plan. -/
theorem Backend.Finds.mem_filesOf_evaluate {b : Backend} (h : b.Finds V documents) (hd : V.Fills documents)
    {p : Plan} (hp : V.Covers p) (f : String) :
    f ∈ filesOf (b.evaluate p) ↔ ∃ d ∈ documents, d.filename = f ∧ d.Satisfies p := by
  rw [Backend.mem_filesOf_evaluate, Backend.mem_filesOf_keptHits, h.primary hp]
  constructor
  · rintro (⟨⟨d, hm, rfl, holds⟩, none⟩ | ⟨pair, hpair, hf⟩)
    · refine ⟨d, hm, rfl, .inl ⟨holds, fun t ht excluded => none t ht ?_⟩⟩
      exact (h.term (hp.exclusions t ht) _).2 ⟨d, hm, rfl, excluded⟩
    · obtain ⟨d, hm, hn, holds⟩ := (h.pair (hp.proximity pair hpair) f).1 hf
      exact ⟨d, hm, hn, .inr ⟨pair, hpair, holds⟩⟩
  · rintro ⟨d, hm, rfl, ⟨holds, none⟩ | ⟨pair, hpair, holds⟩⟩
    · refine .inl ⟨⟨d, hm, rfl, holds⟩, fun t ht hf => none t ht ?_⟩
      -- whatever has the filename is the document
      obtain ⟨d', hm', hn, excluded⟩ := (h.term (hp.exclusions t ht) _).1 hf
      rwa [hd.eq hm hm' hn.symm]
    · exact .inr ⟨pair, hpair, (h.pair (hp.proximity pair hpair) _).2 ⟨d, hm, rfl, holds⟩⟩

/-! ## Scanning -/

namespace Scanner

/-- Words of the vocabulary are found where they stand in sequence, whether they are quoted or not. -/
theorem mem_filesOf_search_of_writes (hd : V.Fills documents) (radius : Nat) {t : Term} (ht : V.Writes t.text)
    (hne : words t.text.toList ≠ []) (f : String) :
    f ∈ filesOf (Scanner.search ⟨documents, ⟨false, false, radius⟩⟩ t) ↔
      ∃ d ∈ documents, d.filename = f ∧ d.HoldsTerm t := by
  rw [mem_filesOf_search]
  refine exists_congr fun d => and_congr_right fun hm => and_congr_right fun _ => ?_
  have hw := hd.texts d hm
  show (Vocabulary.literal t.text.toList).spans d.text.toList ≠ [] ↔ _
  rw [← ht.joinWith_words, ← hw.joinWith_words, ht.all_words.spans_ne_nil_iff hw.all_words hne]
  rfl

theorem mem_filesOf_search_iff_holdsTerm (hd : V.Fills documents) (radius : Nat) {t : Term} (ht : V.IsTerm t)
    (f : String) :
    f ∈ filesOf (Scanner.search ⟨documents, ⟨false, false, radius⟩⟩ t) ↔
      ∃ d ∈ documents, d.filename = f ∧ d.HoldsTerm t :=
  mem_filesOf_search_of_writes hd radius ht.writes ht.words_ne_nil f

theorem mem_filesOf_primaryHits_iff_holdsPrimary (hd : V.Fills documents) (radius : Nat) {p : Plan}
    (hp : V.Covers p) (f : String) :
    f ∈ filesOf ((Backend.memory ⟨documents, ⟨false, false, radius⟩⟩).primaryHits p) ↔
      ∃ d ∈ documents, d.filename = f ∧ d.HoldsPrimary p := by
  have term : ∀ t ∈ p.primary, ∀ f, f ∈ files ⟨documents, ⟨false, false, radius⟩⟩ t ↔ _ :=
    fun t ht => mem_filesOf_search_iff_holdsTerm hd radius (hp.primary t ht)
  rw [mem_filesOf_primaryHits]
  unfold Document.HoldsPrimary
  by_cases hc : p.combinator = .or
  · simp only [Plan.selects_of_or hc, if_pos hc]
    constructor
    · rintro ⟨t, ht, hf⟩
      obtain ⟨d, hm, hn, holds⟩ := (term t ht f).1 hf
      exact ⟨d, hm, hn, t, ht, holds⟩
    · rintro ⟨d, hm, hn, t, ht, holds⟩
      exact ⟨t, ht, (term t ht f).2 ⟨d, hm, hn, holds⟩⟩
  · simp only [Plan.selects_of_ne_or hc, if_neg hc]
    constructor
    · rintro ⟨hne, all⟩
      obtain ⟨t, ht⟩ := List.exists_mem_of_ne_nil _ hne
      obtain ⟨d, hm, hn, -⟩ := (term t ht f).1 (all t ht)
      refine ⟨d, hm, hn, hne, fun t ht => ?_⟩
      -- every term has the filename, and so the one document
      obtain ⟨d', hm', hn', holds⟩ := (term t ht f).1 (all t ht)
      rwa [hd.eq hm hm' (hn.trans hn'.symm)]
    · rintro ⟨d, hm, hn, hne, all⟩
      exact ⟨hne, fun t ht => (term t ht f).2 ⟨d, hm, hn, all t ht⟩⟩

theorem mem_filesOf_searchProximity_iff_holdsPair (hd : V.Fills documents) (radius : Nat) {pair : ProximityPair}
    (hp : V.IsPair pair) (f : String) :
    f ∈ filesOf (Scanner.searchProximity ⟨documents, ⟨false, false, radius⟩⟩ pair.first pair.second pair.maxWords) ↔
      ∃ d ∈ documents, d.filename = f ∧ d.HoldsPair pair := by
  rw [mem_filesOf_searchProximity]
  refine exists_congr fun d => and_congr_right fun hm => and_congr_right fun _ => ?_
  have hw := hd.texts d hm
  have different : pair.first.text.toList ≠ pair.second.text.toList :=
    fun he => hp.different (String.toList_inj.1 he)
  have close := hw.all_words.exists_isClose_iff hp.first hp.second different pair.maxWords.toNat
  rw [hw.joinWith_words] at close
  exact close

/-- Scanning in any case and inside words finds what is asked for. -/
theorem finds (hd : V.Fills documents) (radius : Nat) :
    (Backend.memory ⟨documents, ⟨false, false, radius⟩⟩).Finds V documents where
  term := mem_filesOf_search_iff_holdsTerm hd radius
  primary := mem_filesOf_primaryHits_iff_holdsPrimary hd radius
  pair := mem_filesOf_searchProximity_iff_holdsPair hd radius

end Scanner

/-! ## Looking up -/

namespace Index

variable {rows : Rows}

theorem infix_terms_iff {t : Term} (ht : V.IsTerm t) {d : Document} (hd : V.Writes d.text) {symbol : Symbol}
    (hs : symbol.text = t.text.toList) : terms symbol.text <:+: terms d.text.toList ↔ d.HoldsTerm t := by
  rw [hs, ht.writes.terms, hd.terms, ht.writes.all_words.map_termOf_isInfix_iff hd.all_words]
  rfl

theorem matchesPhrases_flatMap {ts : List Term} (hts : ∀ t ∈ ts, V.IsTerm t) {d : Document} (hd : V.Writes d.text) :
    MatchesPhrases (ts.flatMap symbolsOf) (terms d.text.toList) ↔ ts ≠ [] ∧ ∀ t ∈ ts, d.HoldsTerm t := by
  constructor
  · rintro ⟨⟨s, hs, -⟩, all⟩
    obtain ⟨t, ht, -⟩ := List.mem_flatMap.1 hs
    refine ⟨List.ne_nil_of_mem ht, fun t ht => ?_⟩
    obtain ⟨symbol, hone, htext⟩ := (hts t ht).exists_symbolsOf
    exact (infix_terms_iff (hts t ht) hd htext).1 (all symbol (List.mem_flatMap.2 ⟨t, ht, by simp [hone]⟩))
  · rintro ⟨hne, all⟩
    constructor
    · obtain ⟨t, ht⟩ := List.exists_mem_of_ne_nil _ hne
      obtain ⟨symbol, hone, htext⟩ := (hts t ht).exists_symbolsOf
      refine ⟨symbol, List.mem_flatMap.2 ⟨t, ht, by simp [hone]⟩, ?_⟩
      rw [htext, (hts t ht).writes.terms]
      simpa using (hts t ht).words_ne_nil
    · intro s hs
      obtain ⟨t, ht, hs⟩ := List.mem_flatMap.1 hs
      obtain ⟨symbol, hone, htext⟩ := (hts t ht).exists_symbolsOf
      rw [hone, List.mem_singleton] at hs
      exact (infix_terms_iff (hts t ht) hd (hs ▸ htext)).2 (all t ht)

theorem matchesPhrases_symbolsOf {t : Term} (ht : V.IsTerm t) {d : Document} (hd : V.Writes d.text) :
    MatchesPhrases (symbolsOf t) (terms d.text.toList) ↔ d.HoldsTerm t := by
  have alone : ∀ t' ∈ [t], V.IsTerm t' := by simpa using ht
  have one := matchesPhrases_flatMap alone hd
  simpa using one

theorem mem_filesOf_search_iff_holdsTerm (hr : rows.Stores documents) (hd : V.Fills documents) {t : Term}
    (ht : V.IsTerm t) (f : String) :
    f ∈ filesOf ((Index.ofRows rows).search t) ↔ ∃ d ∈ documents, d.filename = f ∧ d.HoldsTerm t := by
  rw [mem_filesOf_search hr ht.writes.not_nul]
  refine exists_congr fun d => and_congr_right fun hm => and_congr_right fun _ => ?_
  exact matchesPhrases_symbolsOf ht (hd.texts d hm)

/-- A word of the vocabulary is an operand of NEAR as it is. -/
theorem text_operandOf {t : Term} (ht : t.text.toList ∈ V.words) : (operandOf t).text = t.text.toList := by
  have one : ¬ 1 < (words t.text.toList).length := by
    rw [Vocabulary.words_of_mem ht]
    exact Nat.lt_irrefl 1
  have trimmed : trim t.text.toList = t.text.toList :=
    trim_of_none fun c hc => isBlank_of_isLower (V.lower _ ht c hc)
  unfold operandOf
  split
  · rfl
  · rw [text_ofText, trimmed]

theorem mem_filesOf_primaryHits_iff_holdsPrimary (hr : rows.Stores documents) (hd : V.Fills documents) {p : Plan}
    (hp : V.Covers p) (f : String) :
    f ∈ filesOf ((Backend.index (.ofRows rows)).primaryHits p) ↔
      ∃ d ∈ documents, d.filename = f ∧ d.HoldsPrimary p := by
  have nulFree : ∀ t ∈ p.primary, NulFree t := fun t ht => (hp.primary t ht).writes.not_nul
  unfold Backend.primaryHits Document.HoldsPrimary
  split
  · rename_i none
    simp [none]
  · rename_i t hc hone
    have ht := hp.primary t (by simp [hone])
    rw [Backend.search, mem_filesOf_search_iff_holdsTerm hr hd ht]
    simp [hc, hone]
  · rw [Backend.searchMultiple]
    split
    · rename_i hc
      rw [hc, mem_filesOf_searchMultiple_or hr nulFree]
      refine exists_congr fun d => and_congr_right fun hm => and_congr_right fun _ => ?_
      refine exists_congr fun t => and_congr_right fun ht => ?_
      exact matchesPhrases_symbolsOf (hp.primary t ht) (hd.texts d hm)
    · rename_i hc
      rw [mem_filesOf_searchMultiple_all hr nulFree hc]
      refine exists_congr fun d => and_congr_right fun hm => and_congr_right fun _ => ?_
      exact matchesPhrases_flatMap hp.primary (hd.texts d hm)

theorem mem_filesOf_searchProximity_iff_holdsPair (hr : rows.Stores documents) (hd : V.Fills documents)
    {pair : ProximityPair} (hp : V.IsPair pair) (f : String) :
    f ∈ filesOf ((Index.ofRows rows).searchProximity pair.first pair.second pair.maxWords) ↔
      ∃ d ∈ documents, d.filename = f ∧ d.HoldsPair pair := by
  -- either word is a phrase of one term
  have one : ∀ {t : Term}, t.text.toList ∈ V.words →
      terms (operandOf t).text = [Vocabulary.termOf t.text.toList] := by
    intro t ht
    rw [text_operandOf ht, Vocabulary.All.terms_word ht]
  have some : ∀ {t : Term}, t.text.toList ∈ V.words → terms (operandOf t).text ≠ [] :=
    fun ht => one ht ▸ List.cons_ne_nil _ _
  rw [mem_filesOf_searchProximity hr (Vocabulary.writes_of_mem hp.first).not_nul
    (Vocabulary.writes_of_mem hp.second).not_nul (some hp.first) (some hp.second)]
  refine exists_congr fun d => and_congr_right fun hm => and_congr_right fun _ => ?_
  have hw := hd.texts d hm
  rw [one hp.first, one hp.second, hw.terms]
  simp only [hw.all_words.mem_instances_termOf hp.first, hw.all_words.mem_instances_termOf hp.second,
    List.length_singleton, Document.HoldsPair]
  constructor
  · rintro ⟨i, hi, j, hj, hc⟩
    exact ⟨i, j, hi, hj, hc⟩
  · rintro ⟨i, j, hi, hj, hc⟩
    exact ⟨i, hi, j, hj, hc⟩

/-- An index of the documents finds what is asked for. -/
theorem finds (hr : rows.Stores documents) (hd : V.Fills documents) :
    (Backend.index (.ofRows rows)).Finds V documents where
  term := mem_filesOf_search_iff_holdsTerm hr hd
  primary := mem_filesOf_primaryHits_iff_holdsPrimary hr hd
  pair := mem_filesOf_searchProximity_iff_holdsPair hr hd

end Index

/-! ## Parity -/

/--
Scanning a corpus in any case and inside words finds the same files as an index built from it, for every
vocabulary, every corpus of its words with distinct filenames, every size of a batch and every plan of its
terms and of pairs of different words.
-/
theorem mem_filesOf_evaluate_memory_iff_index {c : Corpus} {batchSize : Nat} {ix : Index}
    (hix : ix.BuiltFrom c batchSize) (hc : V.Fills c.documents) {p : Plan} (hp : V.Covers p) (radius : Nat)
    (f : String) :
    f ∈ filesOf ((Backend.memory (c.scanner ⟨false, false, radius⟩)).evaluate p) ↔
      f ∈ filesOf ((Backend.index ix).evaluate p) := by
  obtain ⟨rows, rfl, hr⟩ := hix.stores
  have scanned := (Scanner.finds hc radius).mem_filesOf_evaluate hc hp f
  have lookedUp := (Index.finds hr hc).mem_filesOf_evaluate hc hp f
  exact scanned.trans lookedUp.symm

end

def shoreWords : List (List Char) := ["island".toList, "log".toList]

/-- The words `island` and `log`. -/
def shore : Vocabulary where
  words := {w | w ∈ shoreWords}
  nonempty := show ∀ w ∈ shoreWords, w ≠ [] by decide +kernel
  lower := by
    have lower : shoreWords.all (fun w => w.all Char.isLower) = true := by decide +kernel
    exact fun w hw => List.all_eq_true.1 (List.all_eq_true.1 lower w hw)
  apart := show ∀ v ∈ shoreWords, ∀ w ∈ shoreWords, v <:+: w → v = w by decide +kernel
  distinct := show ∀ v ∈ shoreWords, ∀ w ∈ shoreWords, Index.terms v = Index.terms w → v = w by decide +kernel

instance (w : List Char) : Decidable (w ∈ shore.words) := inferInstanceAs (Decidable (w ∈ shoreWords))

instance (ws : List (List Char)) : Decidable (shore.All ws) :=
  inferInstanceAs (Decidable (∀ w ∈ ws, w ∈ shore.words))

/-- Three documents of these words. -/
def shoreLogs : List Document :=
  [⟨1, 1, "a", "a", 1, "island log island", none⟩, ⟨2, 1, "b", "b", 1, "log log", none⟩,
    ⟨3, 2, "c", "c", 1, "", none⟩]

/-- Documents with the phrase but without the other word twice, or with both words next to each other. -/
def shorePlan : Plan :=
  ⟨[⟨"island log", true⟩], .single, [⟨⟨"log", false⟩, ⟨"island", true⟩, 0⟩], [⟨"log log", true⟩], []⟩

theorem shore_fills : shore.Fills shoreLogs := by
  refine ⟨?_, by decide⟩
  rintro d hd
  fin_cases hd
  · exact ⟨["island".toList, "log".toList, "island".toList], by decide +kernel, by decide +kernel⟩
  · exact ⟨["log".toList, "log".toList], by decide +kernel, by decide +kernel⟩
  · exact ⟨[], by decide +kernel, by decide +kernel⟩

theorem shore_covers : shore.Covers shorePlan where
  primary := by
    rintro t ht
    fin_cases ht
    exact .inr ⟨rfl, ["island".toList, "log".toList], by decide +kernel, by decide +kernel, by decide +kernel⟩
  exclusions := by
    rintro t ht
    fin_cases ht
    exact .inr ⟨rfl, ["log".toList, "log".toList], by decide +kernel, by decide +kernel, by decide +kernel⟩
  proximity := by
    rintro pair hpair
    fin_cases hpair
    exact ⟨by decide +kernel, by decide +kernel, by decide +kernel⟩

/-- The documents `island log island`, `log log` and the empty one, built in batches of two. -/
theorem mem_filesOf_evaluate_shore :
    ∃ ix : Index, ix.BuiltFrom (.ofDocuments shoreLogs) 2 ∧
      ∀ f,
        f ∈ filesOf
            ((Backend.memory (Corpus.scanner (.ofDocuments shoreLogs) ⟨false, false, 300⟩)).evaluate shorePlan) ↔
        f ∈ filesOf ((Backend.index ix).evaluate shorePlan) := by
  have documents : (Corpus.ofDocuments shoreLogs).documents = shoreLogs := by decide +kernel
  have built : (Index.ofRows ⟨shoreLogs.map Index.Row.ofDocument⟩).BuiltFrom (.ofDocuments shoreLogs) 2 :=
    Index.builtFrom_iff.2 ⟨_, rfl, by decide +kernel, by rw [documents]⟩
  exact ⟨_, built, mem_filesOf_evaluate_memory_iff_index built (documents ▸ shore_fills) shore_covers 300⟩

end Concordance
