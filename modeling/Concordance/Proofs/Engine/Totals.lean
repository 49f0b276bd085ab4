/-
What a response counts. The documents of a backend account for the hits of every plan, each document for one
hit at most, however the hits were combined; filtering, sorting and cutting into pages add none. So there are
no more hits than documents, no file is listed more often than the backend has it, and no hit is empty.
-/
import Concordance.Engine.Open
import Concordance.Proofs.Engine.Evaluate
import Concordance.Proofs.Engine.Paging
import Concordance.Proofs.Index.Answers
import Mathlib.Data.List.Perm.Subperm

namespace Concordance

/-! ## Lists -/

/-- What is found for some members bears their names, in their order. -/
theorem map_filterMap_sublist {α β : Type} {find : α → Option β} {name : α → String} {nameOf : β → String}
    (same : ∀ a b, find a = some b → nameOf b = name a) :
    ∀ l : List α, ((l.filterMap find).map nameOf).Sublist (l.map name)
  | [] => .slnil
  | a :: rest => by
    rw [List.filterMap_cons, List.map_cons]
    cases found : find a with
    | none => exact (map_filterMap_sublist same rest).cons _
    | some b =>
      rw [List.map_cons, same a b found]
      exact (map_filterMap_sublist same rest).cons_cons _

theorem totalOf_le_of_sublist {α : Type} {count : α → Nat} {l m : List α} (h : l.Sublist m) :
    totalOf count l ≤ totalOf count m := by
  induction h with
  | slnil => exact Nat.le_refl _
  | cons a _ ih => exact ih.trans (Nat.le_add_left _ _)
  | cons_cons a _ ih => exact Nat.add_le_add_left ih _

theorem pageOf_sublist (hits : List Hit) (page perPage : Nat) : (Backend.pageOf hits page perPage).Sublist hits :=
  (List.take_sublist _ _).trans (List.drop_sublist _ _)

/-! ## Hits and documents -/

namespace Backend

variable {b : Backend} {hits : List Hit}

/-- The filenames of the documents of a backend, one for each document. -/
def filenames : Backend → List String
  | memory s => s.documents.map (·.filename)
  | index ix => ix.entries.map (·.row.filename)

theorem length_filenames (b : Backend) : b.filenames.length = b.stats.documents := by
  cases b <;> exact List.length_map _

/-- Do the documents of a backend account for hits, each document for one hit of its filename at most? -/
def AccountsFor (b : Backend) (hits : List Hit) : Prop := (filesOf hits).Subperm b.filenames

namespace AccountsFor

theorem nil : b.AccountsFor [] := List.nil_subperm

theorem sublist (h : b.AccountsFor hits) {part : List Hit} (hs : part.Sublist hits) : b.AccountsFor part :=
  (hs.map _).subperm.trans h

theorem filter (h : b.AccountsFor hits) (keep : Hit → Bool) : b.AccountsFor (hits.filter keep) :=
  h.sublist List.filter_sublist

theorem perm (h : b.AccountsFor hits) {sorted : List Hit} (hp : sorted.Perm hits) : b.AccountsFor sorted :=
  (hp.map _).subperm.trans h

theorem shown (h : b.AccountsFor hits) (r : Request) : b.AccountsFor (hits.map (b.shown r)) := by
  have files : filesOf (hits.map (b.shown r)) = filesOf hits := by
    unfold filesOf
    rw [List.map_map]
    exact List.map_congr_left fun h _ => (b.shows_shown r h).filename
  unfold AccountsFor
  rw [files]
  exact h

theorem mem (h : b.AccountsFor hits) {f : String} (hf : f ∈ filesOf hits) : f ∈ b.filenames := h.subset hf

/-- A group names each file once, so it is accounted for if the backend has its files at all. -/
theorem group (h : ∀ f ∈ filesOf hits, f ∈ b.filenames) : b.AccountsFor (group hits) := by
  unfold AccountsFor
  rw [filesOf_group]
  exact List.subperm_of_subset (nodup_eraseDups _) fun f hf => h f (List.mem_eraseDups.1 hf)

theorem length_le (h : b.AccountsFor hits) : hits.length ≤ b.stats.documents := by
  have files : (filesOf hits).length = hits.length := List.length_map _
  rw [← b.length_filenames, ← files]
  exact List.Subperm.length_le h

theorem nodup (h : b.AccountsFor hits) (hn : b.filenames.Nodup) : (filesOf hits).Nodup := by
  obtain ⟨files, hp, hs⟩ := h
  exact hp.nodup_iff.1 (hs.nodup hn)

end AccountsFor

/-! ## Searches -/

theorem accountsFor_scan (s : Scanner) (found : Document → List (Scan.Span × String)) :
    (memory s).AccountsFor (s.documents.filterMap fun d => s.hit? d (found d)) :=
  (map_filterMap_sublist (fun _ _ h => (s.document_of_hit? h).2) _).subperm

/-- Ranking puts the rows that match in another order, and each of them has its own hit. -/
theorem accountsFor_run (ix : Index) (e : List Char) (label : String) :
    (index ix).AccountsFor (ix.run e label) := by
  have ranked : filesOf (ix.run e label) = (ix.ranked (Index.interpret e)).map (·.entry.row.filename) :=
    List.map_map
  have found : ((ix.found (Index.interpret e)).map (·.entry.row.filename)).Sublist (filenames (index ix)) := by
    refine map_filterMap_sublist (fun x f h => ?_) _
    obtain ⟨places, -, rfl⟩ := Option.map_eq_some_iff.1 h
    rfl
  unfold AccountsFor
  rw [ranked]
  exact ((Index.ranked_perm ix _).map _).subperm.trans found.subperm

theorem accountsFor_search (b : Backend) (t : Term) : b.AccountsFor (b.search t) := by
  cases b with
  | memory s => exact accountsFor_scan s _
  | index ix => exact accountsFor_run ix _ _

theorem accountsFor_pairHits (b : Backend) (pair : ProximityPair) : b.AccountsFor (b.pairHits pair) := by
  cases b with
  | memory s => exact accountsFor_scan s _
  | index ix => exact accountsFor_run ix _ _

/-- An index is asked for all primary terms at once, if there are any. -/
theorem primaryHits_index (ix : Index) (p : Plan) :
    (index ix).primaryHits p = [] ∨ ∃ e label, (index ix).primaryHits p = ix.run e label := by
  unfold primaryHits
  split
  · exact .inl rfl
  · exact .inr ⟨_, _, rfl⟩
  · cases p.combinator <;> exact .inr ⟨_, _, rfl⟩

/-! ## Plans -/

variable (b) (p : Plan) (r : Request)

theorem accountsFor_primaryHits : b.AccountsFor (b.primaryHits p) := by
  cases b with
  | index ix =>
    rcases primaryHits_index ix p with none | ⟨e, label, run⟩
    · exact none ▸ .nil
    · exact run ▸ accountsFor_run ix e label
  | memory s =>
    rw [s.primaryHits_eq]
    split
    · -- several terms may find one document, whose hits are merged
      refine .group fun f hf => ?_
      rw [filesOf_flatMap, List.mem_flatMap] at hf
      obtain ⟨t, -, hf⟩ := hf
      exact (accountsFor_search (memory s) t).mem hf
    · split
      · exact .nil
      · exact (accountsFor_search (memory s) _).filter _

theorem accountsFor_evaluate : b.AccountsFor (b.evaluate p) := by
  have kept : b.AccountsFor (b.keptHits p) := (b.accountsFor_primaryHits p).filter _
  rw [evaluate_eq]
  split
  · exact kept
  · -- pairs may find documents of one another and of the primary terms, whose hits are merged
    refine .group fun f hf => ?_
    rw [filesOf_append, filesOf_flatMap, List.mem_append, List.mem_flatMap] at hf
    rcases hf with hf | ⟨pair, -, hf⟩
    · exact kept.mem hf
    · exact (b.accountsFor_pairHits pair).mem hf

theorem accountsFor_matching : b.AccountsFor (b.matching p r) :=
  ((b.accountsFor_evaluate p).filter r.admits).perm (List.mergeSort_perm _ _)

/-- No hit of a plan is without a match. -/
theorem matchCount_pos_of_evaluate : ∀ h ∈ b.evaluate p, 0 < h.matchCount := by
  have absorb : ∀ g h : Hit, 0 < g.matchCount → 0 < h.matchCount → 0 < (g.absorb h).matchCount :=
    fun g h hg _ => Nat.add_pos_left hg _
  cases b with
  | memory s =>
    have scan : ∀ (found : Document → List (Scan.Span × String)),
        ∀ h ∈ s.documents.filterMap (fun d => s.hit? d (found d)), 0 < h.matchCount := by
      intro found h hh
      obtain ⟨d, -, hd⟩ := List.mem_filterMap.1 hh
      exact s.matchCount_pos_of_hit? hd
    exact forall_evaluate _ absorb (s.forall_primaryHits absorb (fun t => scan _) p) fun pair _ => scan _
  | index ix =>
    have run : ∀ e label, ∀ h ∈ ix.run e label, 0 < h.matchCount := by
      intro e label h hh
      obtain ⟨f, -, rfl⟩ := List.mem_map.1 hh
      exact Nat.le_max_right _ _
    refine forall_evaluate _ absorb (fun h hh => ?_) fun pair _ => run _ _
    rcases primaryHits_index ix p with none | ⟨e, label, same⟩
    · exact absurd (none ▸ hh) List.not_mem_nil
    · exact run e label h (same ▸ hh)

/-- Every match that a scan counts has its context. -/
theorem matchCount_of_evaluate (s : Scanner) :
    ∀ h ∈ (memory s).evaluate p, h.matchCount = h.contexts.length := by
  refine forall_evaluate _ (fun g h hg hh => ?_) (fun h => s.matchCount_of_primaryHits)
    fun pair _ h => s.matchCount_of_searchProximity
  simp [Hit.absorb, hg, hh]

/-! ## Responses -/

theorem results_sublist : (b.searchPlan p r).results.Sublist ((b.matching p r).map (b.shown r)) := by
  rw [results_searchPlan]
  exact pageOf_sublist _ _ _

theorem accountsFor_results : b.AccountsFor (b.searchPlan p r).results :=
  ((b.accountsFor_matching p r).shown r).sublist (b.results_sublist p r)

/-- What a response lists is shown of some hit of the plan. -/
theorem exists_of_mem_results {h : Hit} (hh : h ∈ (b.searchPlan p r).results) :
    ∃ g ∈ b.evaluate p, h = b.shown r g := by
  obtain ⟨g, hg, rfl⟩ := List.mem_map.1 ((b.results_sublist p r).subset hh)
  exact ⟨g, List.mem_of_mem_filter ((List.mergeSort_perm _ _).mem_iff.1 hg), rfl⟩

/-- Does a backend search a corpus: by a scan of its documents, or in an index built from it? -/
inductive Serves (c : Corpus) : Backend → Prop where
  | scan (options : Scan.Options) : Serves c (.memory (c.scanner options))
  | index {ix : Index} {batchSize : Nat} (built : ix.BuiltFrom c batchSize) : Serves c (.index ix)

variable {b}

theorem Serves.filenames_perm {c : Corpus} (h : b.Serves c) : b.filenames.Perm (c.documents.map (·.filename)) := by
  cases h with
  | scan options => exact .refl _
  | index built =>
    obtain ⟨rows, rfl, hs⟩ := built.stores
    have names : filenames (.index (.ofRows rows)) = rows.list.map (·.filename) := List.map_map
    have same : c.documents.map (·.filename) = (c.documents.map Index.Row.ofDocument).map (·.filename) := by
      rw [List.map_map]
      rfl
    rw [names, same]
    exact hs.perm.map _

end Backend

/-- Does a response count no document twice, and no hit without a match? -/
structure Response.CountsOnce (c : Corpus) (b : Backend) (r : Request) (response : Response) : Prop where
  total_le : response.total ≤ b.stats.documents
  matched : ∀ h ∈ response.results, 1 ≤ h.matchCount
  length_le : response.results.length ≤ max r.perPage 1
  totalOf_le : totalOf (·.matchCount) response.results ≤ response.totalMatches
  /-- If no file of the corpus has the name of another, no file is listed twice. -/
  nodup : (c.documents.map (·.filename)).Nodup → (filesOf response.results).Nodup
  /-- A scan shows as many contexts as it may. -/
  contexts : ∀ s, b = .memory s → ∀ h ∈ response.results, h.contexts.length = min h.matchCount r.maxContexts

namespace Backend

/-- For any corpus, plan and request, scanned with any options or from an index built in batches of any size. -/
theorem searchPlan_countsOnce {c : Corpus} {b : Backend} (hb : b.Serves c) (p : Plan) (r : Request) :
    (b.searchPlan p r).CountsOnce c b r where
  total_le := (b.accountsFor_matching p r).length_le
  matched := by
    intro h hh
    obtain ⟨g, hg, rfl⟩ := b.exists_of_mem_results p r hh
    rw [(b.shows_shown r g).matchCount]
    exact b.matchCount_pos_of_evaluate p g hg
  length_le := by
    rw [results_searchPlan]
    exact List.length_take_le _ _
  totalOf_le := by
    have all : totalOf (·.matchCount) ((b.matching p r).map (b.shown r)) = (b.searchPlan p r).totalMatches :=
      b.totalOf_map_shown r _
    exact all ▸ totalOf_le_of_sublist (b.results_sublist p r)
  nodup := fun distinct => (b.accountsFor_results p r).nodup (hb.filenames_perm.nodup_iff.2 distinct)
  contexts := by
    rintro s rfl h hh
    obtain ⟨g, hg, rfl⟩ := exists_of_mem_results _ p r hh
    rw [((memory s).shows_shown r g).matchCount, matchCount_of_evaluate p s g hg, Nat.min_comm]
    exact List.length_take

/-! ## Two logs -/

/-- Logs that hold the same words, the second one more of them. -/
def wordLogs : List Document :=
  [⟨1, 1, "a.pdf", "DataSet 1/a.pdf", 1, "island log", none⟩,
    ⟨2, 1, "b.pdf", "DataSet 1/b.pdf", 1, "log island log", none⟩]

/-- Either word, and both words side by side. -/
def wordPlan : Plan :=
  ⟨[⟨"island", false⟩, ⟨"log", false⟩], .or, [⟨⟨"island", false⟩, ⟨"log", false⟩, 0⟩], [], []⟩

/-- The logs scanned as they are spelled, and in an index that was built log by log. -/
theorem searchPlan_wordLogs :
    let c := Corpus.ofDocuments wordLogs
    let scan := memory (c.scanner ⟨true, true, 8⟩)
    let r := Request.ofQuery "island OR log"
    (scan.searchPlan wordPlan r).CountsOnce c scan r ∧
      ∃ ix : Index, ix.BuiltFrom c 1 ∧ ((index ix).searchPlan wordPlan r).CountsOnce c (.index ix) r := by
  have documents : (Corpus.ofDocuments wordLogs).documents = wordLogs := by decide +kernel
  have built : (Index.ofRows ⟨wordLogs.map Index.Row.ofDocument⟩).BuiltFrom (.ofDocuments wordLogs) 1 :=
    Index.builtFrom_iff.2 ⟨_, rfl, by decide +kernel, by rw [documents]⟩
  exact ⟨searchPlan_countsOnce (.scan _) _ _, _, built, searchPlan_countsOnce (.index built) _ _⟩

end Backend

end Concordance
