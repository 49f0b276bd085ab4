/-
A bare term of several words on either backend. A scan looks for the text of the term, so for its words in
sequence, while an index looks for each of its words, wherever it stands. So what a scan finds is found by the
index too, and they find the same exactly if no document holds all the words but not in sequence.
-/
import Concordance.Proofs.Engine.Parity

namespace Concordance

open Text

/-! ## Words of a term -/

/-- Does the document hold each word of a term, in whatever order? -/
def Document.HoldsWords (d : Document) (t : Term) : Prop := ∀ w ∈ words t.text.toList, w ∈ words d.text.toList

instance (d : Document) (t : Term) : Decidable (d.HoldsWords t) :=
  inferInstanceAs (Decidable (∀ w ∈ words t.text.toList, w ∈ words d.text.toList))

instance (d : Document) (t : Term) : Decidable (d.HoldsTerm t) :=
  inferInstanceAs (Decidable (words t.text.toList <:+: words d.text.toList))

theorem Document.HoldsTerm.holdsWords {d : Document} {t : Term} (h : d.HoldsTerm t) : d.HoldsWords t :=
  fun _ hw => h.subset hw

/-- Is a term unquoted, and two words of the vocabulary or more with single spaces between them? -/
structure Vocabulary.IsBareTerm (V : Vocabulary) (t : Term) : Prop where
  bare : t.quoted = false
  text : ∃ ws, 2 ≤ ws.length ∧ V.All ws ∧ t.text.toList = joinWith [' '] ws

section

variable {V : Vocabulary} {documents : List Document} {t : Term}

theorem Vocabulary.IsBareTerm.writes (h : V.IsBareTerm t) : V.Writes t.text := by
  obtain ⟨ws, -, hw, ht⟩ := h.text
  exact ⟨ws, hw, ht⟩

theorem Vocabulary.IsBareTerm.words_ne_nil (h : V.IsBareTerm t) : Text.words t.text.toList ≠ [] := by
  obtain ⟨ws, two, hw, ht⟩ := h.text
  rw [ht, hw.words_joinWith]
  rintro rfl
  exact absurd two (by decide)

/-! ## What an index finds -/

namespace Index

/-- A word's term lies in a text of the vocabulary exactly if the word stands there. -/
theorem terms_isInfix_iff_mem {w : List Char} (hw : w ∈ V.words) {d : Document} (hd : V.Writes d.text) :
    terms w <:+: terms d.text.toList ↔ w ∈ words d.text.toList := by
  have alone : V.All [w] := fun v hv => List.mem_singleton.1 hv ▸ hw
  have one := alone.map_termOf_isInfix_iff hd.all_words
  rw [Vocabulary.All.terms_word hw, hd.terms]
  exact one.trans (List.singleton_infix_iff w _)

theorem matchesPhrases_bare (ht : V.IsBareTerm t) {d : Document} (hd : V.Writes d.text) :
    MatchesPhrases (symbolsOf t) (terms d.text.toList) ↔ d.HoldsWords t := by
  have symbols : symbolsOf t = (words t.text.toList).map Symbol.ofText := by
    rw [symbolsOf, ht.bare]
    rfl
  have all : V.All (words t.text.toList) := ht.writes.all_words
  have each : ∀ w ∈ words t.text.toList,
      terms (Symbol.ofText w).text <:+: terms d.text.toList ↔ w ∈ words d.text.toList := by
    intro w hw
    rw [text_ofText, terms_isInfix_iff_mem (all w hw) hd]
  rw [symbols, MatchesPhrases, Document.HoldsWords]
  simp only [List.mem_map, exists_exists_and_eq_and, forall_exists_index, and_imp, forall_apply_eq_imp_iff₂]
  constructor
  · exact fun h w hw => (each w hw).1 (h.2 w hw)
  · intro h
    obtain ⟨w, hw⟩ := List.exists_mem_of_ne_nil _ ht.words_ne_nil
    refine ⟨⟨w, hw, ?_⟩, fun w hw => (each w hw).2 (h w hw)⟩
    rw [text_ofText, Vocabulary.All.terms_word (all w hw)]
    exact List.cons_ne_nil _ _

theorem mem_filesOf_search_bare {rows : Rows} (hr : rows.Stores documents) (hd : V.Fills documents)
    (ht : V.IsBareTerm t) (f : String) :
    f ∈ filesOf ((Index.ofRows rows).search t) ↔ ∃ d ∈ documents, d.filename = f ∧ d.HoldsWords t := by
  rw [mem_filesOf_search hr ht.writes.not_nul]
  refine exists_congr fun d => and_congr_right fun hm => and_congr_right fun _ => ?_
  exact matchesPhrases_bare ht (hd.texts d hm)

end Index

/-! ## Agreement -/

/--
On a corpus of words with distinct filenames, a scan for a bare term of several words finds the documents that
hold the words in sequence, and an index those that hold each of them. They find the same files exactly if no
document holds all the words but not in sequence.
-/
theorem search_bare_agrees_iff {c : Corpus} {batchSize : Nat} {ix : Index} (hix : ix.BuiltFrom c batchSize)
    (hc : V.Fills c.documents) (ht : V.IsBareTerm t) (radius : Nat) :
    (∀ f, f ∈ filesOf ((c.scanner ⟨false, false, radius⟩).search t) ↔
        ∃ d ∈ c.documents, d.filename = f ∧ d.HoldsTerm t) ∧
      (∀ f, f ∈ filesOf (ix.search t) ↔ ∃ d ∈ c.documents, d.filename = f ∧ d.HoldsWords t) ∧
      (∀ f, f ∈ filesOf ((c.scanner ⟨false, false, radius⟩).search t) → f ∈ filesOf (ix.search t)) ∧
      ((∀ f, f ∈ filesOf ((c.scanner ⟨false, false, radius⟩).search t) ↔ f ∈ filesOf (ix.search t)) ↔
        ∀ d ∈ c.documents, d.HoldsWords t → d.HoldsTerm t) := by
  obtain ⟨rows, rfl, hr⟩ := hix.stores
  have scanned := Scanner.mem_filesOf_search_of_writes hc radius ht.writes ht.words_ne_nil
  have lookedUp := Index.mem_filesOf_search_bare hr hc ht
  have subset : ∀ f, f ∈ filesOf ((c.scanner ⟨false, false, radius⟩).search t) →
      f ∈ filesOf ((Index.ofRows rows).search t) := by
    intro f hf
    obtain ⟨d, hd, hn, holds⟩ := (scanned f).1 hf
    exact (lookedUp f).2 ⟨d, hd, hn, holds.holdsWords⟩
  refine ⟨scanned, lookedUp, subset, ?_⟩
  constructor
  · intro same d hd holds
    -- whatever has the filename is the document
    obtain ⟨d', hd', hn, sequence⟩ := (scanned d.filename).1 ((same d.filename).2 ((lookedUp _).2 ⟨d, hd, rfl, holds⟩))
    rwa [hc.eq hd hd' hn.symm]
  · intro all f
    refine ⟨subset f, fun hf => ?_⟩
    obtain ⟨d, hd, hn, holds⟩ := (lookedUp f).1 hf
    exact (scanned f).2 ⟨d, hd, hn, all d hd holds⟩

end

/-! ## Words in another order -/

/-- Two words of the shore. -/
def islandLog : Term := ⟨"island log", false⟩

theorem isBareTerm_islandLog : shore.IsBareTerm islandLog where
  bare := rfl
  text := ⟨["island".toList, "log".toList], by decide, by decide +kernel, by decide +kernel⟩

/-- In the three documents of the shore the two words stand in sequence wherever they stand together. -/
theorem search_bare_shore :
    shore.Fills (Corpus.documents (.ofDocuments shoreLogs)) ∧ shore.IsBareTerm islandLog ∧
      ∃ ix : Index, ix.BuiltFrom (.ofDocuments shoreLogs) 2 ∧
        ∀ f, f ∈ filesOf ((Corpus.scanner (.ofDocuments shoreLogs) ⟨false, false, 300⟩).search islandLog) ↔
          f ∈ filesOf (ix.search islandLog) := by
  have documents : (Corpus.ofDocuments shoreLogs).documents = shoreLogs := by decide +kernel
  have built : (Index.ofRows ⟨shoreLogs.map Index.Row.ofDocument⟩).BuiltFrom (.ofDocuments shoreLogs) 2 :=
    Index.builtFrom_iff.2 ⟨_, rfl, by decide +kernel, by rw [documents]⟩
  have fills : shore.Fills (Corpus.documents (.ofDocuments shoreLogs)) := documents ▸ shore_fills
  refine ⟨fills, isBareTerm_islandLog, _, built, ?_⟩
  exact (search_bare_agrees_iff built fills isBareTerm_islandLog 300).2.2.2.2 (by decide +kernel)

/-- A document with the two words in the other order. -/
def reversedLog : Document := ⟨1, 1, "a.pdf", "DataSet 1/a.pdf", 1, "log island", none⟩

/-- The index finds the two words in the other order, and the scan does not. -/
theorem search_bare_reversed :
    shore.Fills (Corpus.documents (.ofDocuments [reversedLog])) ∧ shore.IsBareTerm islandLog ∧
      ∃ ix : Index, ix.BuiltFrom (.ofDocuments [reversedLog]) 10000 ∧
        "a.pdf" ∈ filesOf (ix.search islandLog) ∧
        "a.pdf" ∉ filesOf ((Corpus.scanner (.ofDocuments [reversedLog]) ⟨false, false, 300⟩).search islandLog) := by
  have documents : (Corpus.ofDocuments [reversedLog]).documents = [reversedLog] := by decide +kernel
  have stores :
      Index.Rows.Stores ⟨[Index.Row.ofDocument reversedLog]⟩ (Corpus.documents (.ofDocuments [reversedLog])) :=
    ⟨by decide +kernel, by rw [documents]; exact .refl _⟩
  have fills : shore.Fills (Corpus.documents (.ofDocuments [reversedLog])) := by
    rw [documents]
    refine ⟨?_, by decide⟩
    intro d hd
    rw [List.mem_singleton.1 hd]
    exact ⟨["log".toList, "island".toList], by decide +kernel, by decide +kernel⟩
  refine ⟨fills, isBareTerm_islandLog, _, Index.builtFrom_iff.2 ⟨_, rfl, stores⟩, ?_, ?_⟩
  · rw [Index.mem_filesOf_search_bare stores fills isBareTerm_islandLog]
    exact ⟨reversedLog, by decide +kernel, rfl, by decide +kernel⟩
  · intro found
    obtain ⟨d, hd, -, holds⟩ := (Scanner.mem_filesOf_search_of_writes fills 300 isBareTerm_islandLog.writes
      isBareTerm_islandLog.words_ne_nil _).1 found
    rw [documents, List.mem_singleton] at hd
    subst hd
    exact absurd holds (by decide +kernel)

end Concordance
