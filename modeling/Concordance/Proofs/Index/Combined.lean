/-
Several terms at once on an index. Alternatives find what some term finds. Terms side by side find what all
of them find, less those without a token character: alone such a term finds nothing, but beside others it
asks for nothing and is passed over.
-/
import Concordance.Proofs.Index.Answers
import Concordance.Proofs.Index.Tokens

namespace Concordance

open Text

/-- Does a term hold a character that belongs to a token? -/
def Term.HasToken (t : Term) : Prop := ∃ c ∈ t.text.toList, Index.isTokenChar c = true

instance (t : Term) : Decidable t.HasToken :=
  decidable_of_iff (t.text.toList.any Index.isTokenChar = true) List.any_eq_true

namespace Index

/-! ## What terms ask for -/

theorem terms_ne_nil {text : List Char} : terms text ≠ [] ↔ ∃ c ∈ text, isTokenChar c = true := by
  rw [ne_eq, terms_eq_nil]
  simp only [not_forall, exists_prop, Bool.not_eq_false]

/-- A term has a token character exactly if some symbol of it has terms. -/
theorem exists_terms_symbolsOf {t : Term} : (∃ s ∈ symbolsOf t, terms s.text ≠ []) ↔ t.HasToken := by
  unfold symbolsOf
  split
  · simp only [List.mem_singleton, exists_eq_left, terms_ne_nil]
    rfl
  · constructor
    · rintro ⟨s, hs, hterms⟩
      obtain ⟨w, hw, rfl⟩ := List.mem_map.1 hs
      rw [text_ofText] at hterms
      obtain ⟨c, hc, htoken⟩ := terms_ne_nil.1 hterms
      exact ⟨c, mem_of_mem_words hw hc, htoken⟩
    · rintro ⟨c, hc, htoken⟩
      -- a token character is not blank, so it stands in some word
      obtain ⟨w, hw, hm⟩ := exists_mem_words (isBlank_of_isTokenChar htoken) hc
      refine ⟨_, List.mem_map_of_mem hw, ?_⟩
      rw [text_ofText]
      exact terms_ne_nil.2 ⟨c, hm, htoken⟩

theorem MatchesPhrases.hasToken {t : Term} {text : List Word} (h : MatchesPhrases (symbolsOf t) text) : t.HasToken :=
  exists_terms_symbolsOf.1 h.1

/-- Texts hold the phrases of several terms that hold those of each term with a token character. -/
theorem matchesPhrases_flatMap_symbolsOf {ts : List Term} {text : List Word} :
    MatchesPhrases (ts.flatMap symbolsOf) text ↔
      (∃ t ∈ ts, t.HasToken) ∧ ∀ t ∈ ts, t.HasToken → MatchesPhrases (symbolsOf t) text := by
  simp only [MatchesPhrases, List.mem_flatMap]
  constructor
  · rintro ⟨⟨s, ⟨t, ht, hs⟩, hterms⟩, hall⟩
    refine ⟨⟨t, ht, exists_terms_symbolsOf.1 ⟨s, hs, hterms⟩⟩, fun u hu htoken => ?_⟩
    exact ⟨exists_terms_symbolsOf.2 htoken, fun s hs => hall s ⟨u, hu, hs⟩⟩
  · rintro ⟨⟨t, ht, htoken⟩, hall⟩
    obtain ⟨s, hs, hterms⟩ := exists_terms_symbolsOf.2 htoken
    refine ⟨⟨s, ⟨t, ht, hs⟩, hterms⟩, ?_⟩
    rintro s' ⟨u, hu, hs'⟩
    by_cases hu' : u.HasToken
    · exact (hall u hu hu').2 s' hs'
    · -- without terms a symbol asks for nothing
      have none : terms s'.text = [] := by
        by_contra h
        exact hu' (exists_terms_symbolsOf.1 ⟨s', hs', h⟩)
      rw [none]
      exact List.nil_infix

/-! ## Searches for several terms -/

variable {rows : Rows} {documents : List Document}

theorem hasToken_of_mem_filesOf_search (hs : rows.Stores documents) {t : Term} (ht : NulFree t) {f : String}
    (h : f ∈ filesOf ((Index.ofRows rows).search t)) : t.HasToken := by
  obtain ⟨d, -, -, hm⟩ := (mem_filesOf_search hs ht).1 h
  exact hm.hasToken

theorem mem_filesOf_or_iff (hs : rows.Stores documents) {ts : List Term} (ht : ∀ t ∈ ts, NulFree t) {f : String} :
    f ∈ filesOf ((Index.ofRows rows).searchMultiple ts .or) ↔
      ∃ t ∈ ts, f ∈ filesOf ((Index.ofRows rows).search t) := by
  rw [mem_filesOf_searchMultiple_or hs ht]
  constructor
  · rintro ⟨d, hd, hf, t, hm, hp⟩
    exact ⟨t, hm, (mem_filesOf_search hs (ht t hm)).2 ⟨d, hd, hf, hp⟩⟩
  · rintro ⟨t, hm, hsearch⟩
    obtain ⟨d, hd, hf, hp⟩ := (mem_filesOf_search hs (ht t hm)).1 hsearch
    exact ⟨d, hd, hf, t, hm, hp⟩

theorem mem_filesOf_and_iff (hs : rows.Stores documents) (hd : (documents.map (·.filename)).Nodup) {ts : List Term}
    (ht : ∀ t ∈ ts, NulFree t) {f : String} :
    f ∈ filesOf ((Index.ofRows rows).searchMultiple ts .and) ↔
      (∃ t ∈ ts, t.HasToken) ∧ ∀ t ∈ ts, t.HasToken → f ∈ filesOf ((Index.ofRows rows).search t) := by
  rw [mem_filesOf_searchMultiple_all hs ht (by decide)]
  constructor
  · rintro ⟨d, hm, hf, hp⟩
    obtain ⟨some, hall⟩ := matchesPhrases_flatMap_symbolsOf.1 hp
    exact ⟨some, fun t htm htoken => (mem_filesOf_search hs (ht t htm)).2 ⟨d, hm, hf, hall t htm htoken⟩⟩
  · rintro ⟨⟨t, htm, htoken⟩, hall⟩
    obtain ⟨d, hm, hf, -⟩ := (mem_filesOf_search hs (ht t htm)).1 (hall t htm htoken)
    refine ⟨d, hm, hf, matchesPhrases_flatMap_symbolsOf.2 ⟨⟨t, htm, htoken⟩, fun u hu hu' => ?_⟩⟩
    -- another term is found in a document of the same filename, so in the same one
    obtain ⟨e, he, hfe, hp⟩ := (mem_filesOf_search hs (ht u hu)).1 (hall u hu hu')
    rwa [List.inj_on_of_nodup_map hd he hm (hfe.trans hf.symm)] at hp

/--
On an index of distinct filenames OR is the union of what its terms find, and AND the intersection over the
terms with a token character, if there are any. So AND is the intersection over all its terms exactly if
each has a token character, or if it finds nothing.
-/
theorem searchMultiple_set_algebra {ix : Index} {c : Corpus} {batchSize : Nat} (hix : ix.BuiltFrom c batchSize)
    (hc : (c.documents.map (·.filename)).Nodup) {ts : List Term} (hne : ts ≠ []) (ht : ∀ t ∈ ts, NulFree t) :
    (∀ f, f ∈ filesOf (ix.searchMultiple ts .or) ↔ ∃ t ∈ ts, f ∈ filesOf (ix.search t)) ∧
      (∀ f, f ∈ filesOf (ix.searchMultiple ts .and) ↔
        (∃ t ∈ ts, t.HasToken) ∧ ∀ t ∈ ts, t.HasToken → f ∈ filesOf (ix.search t)) ∧
      ((∀ f, f ∈ filesOf (ix.searchMultiple ts .and) ↔ ∀ t ∈ ts, f ∈ filesOf (ix.search t)) ↔
        (∀ t ∈ ts, t.HasToken) ∨ filesOf (ix.searchMultiple ts .and) = []) := by
  obtain ⟨rows, rfl, hs⟩ := hix.stores
  refine ⟨fun f => mem_filesOf_or_iff hs ht, fun f => mem_filesOf_and_iff hs hc ht, ?_⟩
  have found : ∀ f, (∀ t ∈ ts, f ∈ filesOf ((Index.ofRows rows).search t)) → ∀ t ∈ ts, t.HasToken :=
    fun f h t htm => hasToken_of_mem_filesOf_search hs (ht t htm) (h t htm)
  constructor
  · intro same
    rw [or_iff_not_imp_right]
    intro some
    obtain ⟨f, hf⟩ := List.exists_mem_of_ne_nil _ some
    exact found f ((same f).1 hf)
  · rintro (all | none) f
    · rw [mem_filesOf_and_iff hs hc ht]
      obtain ⟨t, htm⟩ := List.exists_mem_of_ne_nil _ hne
      exact ⟨fun h u hu => h.2 u hu (all u hu), fun h => ⟨⟨t, htm, all t htm⟩, fun u hu _ => h u hu⟩⟩
    · rw [none]
      refine ⟨fun h => absurd h List.not_mem_nil, fun h => ?_⟩
      obtain ⟨t, htm⟩ := List.exists_mem_of_ne_nil _ hne
      have inAnd := (mem_filesOf_and_iff hs hc ht).2 ⟨⟨t, htm, found f h t htm⟩, fun u hu _ => h u hu⟩
      rw [none] at inAnd
      cases inAnd

/-! ## A term of dashes -/

/-- A log, alone in its corpus. -/
def dashLog : Document := ⟨1, 1, "a.pdf", "DataSet 1/a.pdf", 1, "island log", none⟩

def dashes : Term := ⟨"---", false⟩

theorem builtFrom_dashLog :
    (Index.ofRows ⟨[Row.ofDocument dashLog]⟩).BuiltFrom (.ofDocuments [dashLog]) 10000 :=
  builtFrom_iff.2 ⟨_, rfl, by decide, .refl _⟩

/-- Both words of the log have token characters. -/
theorem searchMultiple_island_log :
    ∃ ix : Index, ix.BuiltFrom (.ofDocuments [dashLog]) 10000 ∧
      ∀ f, f ∈ filesOf (ix.searchMultiple [⟨"island", false⟩, ⟨"log", true⟩] .and) ↔
        ∀ t ∈ [(⟨"island", false⟩ : Term), ⟨"log", true⟩], f ∈ filesOf (ix.search t) := by
  refine ⟨_, builtFrom_dashLog, ?_⟩
  exact (searchMultiple_set_algebra builtFrom_dashLog (by decide +kernel) (List.cons_ne_nil _ _)
    (by unfold NulFree; decide +kernel)).2.2.2 (.inl (by decide +kernel))

/-- Dashes find nothing alone, and do not keep the word beside them from being found. -/
theorem searchMultiple_dashes :
    ∃ ix : Index, ix.BuiltFrom (.ofDocuments [dashLog]) 10000 ∧
      (Corpus.documents (.ofDocuments [dashLog])).map (·.filename) = ["a.pdf"] ∧
      NulFree ⟨"island", false⟩ ∧ NulFree dashes ∧
      "a.pdf" ∈ filesOf (ix.searchMultiple [⟨"island", false⟩, dashes] .and) ∧
      "a.pdf" ∉ filesOf (ix.search dashes) := by
  have free : NulFree ⟨"island", false⟩ ∧ NulFree dashes := by
    unfold NulFree
    decide +kernel
  obtain ⟨rows, same, hs⟩ := builtFrom_dashLog.stores
  refine ⟨_, builtFrom_dashLog, by decide +kernel, free.1, free.2, ?_, ?_⟩
  · rw [same, mem_filesOf_searchMultiple_all hs (by simpa using free) (by decide)]
    exact ⟨dashLog, by decide +kernel, rfl, by unfold MatchesPhrases; decide +kernel⟩
  · rw [same]
    intro h
    exact absurd (hasToken_of_mem_filesOf_search hs free.2 h) (by decide +kernel)

end Index

end Concordance
