/-
What a request that names a dataset answers. Everything that evaluation joins it joins by filename, so
leaving out all documents of some filenames commutes with it; the filter of a request looks at the dataset
of the hit that came first for a filename. So a request that names a dataset is answered as if only the
documents of that dataset were there exactly if no filename of the dataset is used by another dataset. A
term alone joins nothing, and is answered so whatever the filenames are.
-/
import Concordance.Proofs.Engine.Evaluate

namespace Concordance

/-! ## Leaving out filenames -/

theorem intersect_filter (q : String → Bool) (hits : List Hit) (others : List (List Hit)) :
    (intersect hits others).filter (fun h => q h.filename) =
      intersect (hits.filter fun h => q h.filename) (others.map (·.filter fun h => q h.filename)) := by
  unfold intersect
  rw [List.filter_filter, List.filter_filter]
  refine List.filter_congr fun h _ => ?_
  rw [Bool.eq_iff_iff]
  simp only [Bool.and_eq_true, List.all_map, List.all_eq_true, Function.comp_apply, hasFile_eq_true,
    filesOf_filter, List.mem_filter]
  constructor
  · rintro ⟨hq, ho⟩
    exact ⟨fun o hm => ⟨ho o hm, hq⟩, hq⟩
  · rintro ⟨ho, hq⟩
    exact ⟨hq, fun o hm => (ho o hm).1⟩

theorem exclude_filter {q : String → Bool} {a b : List String} (h : ∀ f, q f = true → (f ∈ a ↔ f ∈ b))
    (hits : List Hit) :
    (exclude hits a).filter (fun h => q h.filename) = exclude (hits.filter fun h => q h.filename) b := by
  unfold exclude
  rw [List.filter_filter, List.filter_filter]
  refine List.filter_congr fun g _ => ?_
  rw [Bool.eq_iff_iff]
  simp only [Bool.and_eq_true, Bool.not_eq_true', List.contains_eq_mem, decide_eq_false_iff_not]
  constructor
  · rintro ⟨hq, ha⟩
    exact ⟨fun hb => ha ((h _ hq).2 hb), hq⟩
  · rintro ⟨hb, hq⟩
    exact ⟨hq, fun ha => hb ((h _ hq).1 ha)⟩

/-- Hits of documents are selected by selecting the documents. -/
theorem filter_filterMap_of {g : Document → Option Hit} {P : Document → Bool} {Q : Hit → Bool}
    (hg : ∀ d h, g d = some h → Q h = P d) :
    ∀ docs : List Document, (docs.filterMap g).filter Q = (docs.filter P).filterMap g
  | [] => rfl
  | d :: docs => by
    have ih := filter_filterMap_of hg docs
    rw [List.filter_cons]
    cases hd : g d with
    | none =>
      rw [List.filterMap_cons_none hd, ih]
      split
      · rw [List.filterMap_cons_none hd]
      · rfl
    | some h =>
      rw [List.filterMap_cons_some hd, List.filter_cons, hg d h hd, ih]
      split
      · rw [List.filterMap_cons_some hd]
      · rfl

namespace Scanner

variable (s : Scanner)

/-- The scanner of the documents that satisfy `P`. -/
def restrict (P : Document → Bool) : Scanner := { s with documents := s.documents.filter P }

/-- The scanner of the documents of some filenames. -/
def restrictFiles (q : String → Bool) : Scanner := s.restrict fun d => q d.filename

theorem search_restrictFiles (q : String → Bool) (t : Term) :
    (s.restrictFiles q).search t = (s.search t).filter fun h => q h.filename :=
  (filter_filterMap_of (fun _ _ h => congrArg q (s.document_of_hit? h).2) s.documents).symm

theorem searchProximity_restrictFiles (q : String → Bool) (a b : Term) (n : UInt32) :
    (s.restrictFiles q).searchProximity a b n = (s.searchProximity a b n).filter fun h => q h.filename :=
  (filter_filterMap_of (fun _ _ h => congrArg q (s.document_of_hit? h).2) s.documents).symm

theorem primaryHits_restrictFiles (q : String → Bool) (p : Plan) :
    (Backend.memory (s.restrictFiles q)).primaryHits p =
      ((Backend.memory s).primaryHits p).filter fun h => q h.filename := by
  rw [primaryHits_eq, primaryHits_eq]
  split
  · rw [filter_group, List.filter_flatMap]
    congr 2
    exact funext fun t => s.search_restrictFiles q t
  · rcases p.primary with _ | ⟨first, rest⟩
    · rfl
    · simp only [intersect_filter, search_restrictFiles, List.map_map]
      congr 2
      exact funext fun t => s.search_restrictFiles q t

/-- Leaving out the documents of some filenames leaves out their hits, for every plan. -/
theorem evaluate_restrictFiles (q : String → Bool) (p : Plan) :
    (Backend.memory (s.restrictFiles q)).evaluate p =
      ((Backend.memory s).evaluate p).filter fun h => q h.filename := by
  have kept : (Backend.memory (s.restrictFiles q)).keptHits p =
      ((Backend.memory s).keptHits p).filter fun h => q h.filename := by
    rw [Backend.keptHits, primaryHits_restrictFiles, Backend.keptHits, exclude_filter]
    intro f hf
    simp only [Backend.mem_filesHolding, Backend.search, search_restrictFiles, filesOf_filter, List.mem_filter, hf,
      and_true]
  rw [Backend.evaluate_eq, Backend.evaluate_eq, kept]
  split
  · rfl
  · rw [filter_group, List.filter_append, List.filter_flatMap]
    congr 3
    exact funext fun pair => s.searchProximity_restrictFiles q _ _ _

/-! ## Datasets that share no filename -/

/-- The scanner of the documents of one dataset. -/
def within (d : UInt32) : Scanner := s.restrict (·.dataset = d)

theorem search_within (d : UInt32) (t : Term) : (s.within d).search t = (s.search t).filter (·.dataset = d) :=
  (filter_filterMap_of (fun _ _ h => by rw [(s.document_of_hit? h).1]) s.documents).symm

theorem search_without (d : UInt32) (t : Term) :
    (s.restrict (·.dataset ≠ d)).search t = (s.search t).filter fun h => !decide (h.dataset = d) :=
  (filter_filterMap_of (fun _ _ h => by rw [(s.document_of_hit? h).1]; simp) s.documents).symm

/-- Does no document of another dataset have a filename of the dataset? -/
def OwnsFiles (d : UInt32) : Prop :=
  ∀ own ∈ s.documents, ∀ other ∈ s.documents,
    own.dataset = d → other.dataset ≠ d → own.filename ≠ other.filename

/-- Every hit of a plan has the dataset and the filename of some document. -/
theorem document_of_evaluate {p : Plan} {h : Hit} (hh : h ∈ (Backend.memory s).evaluate p) :
    ∃ d ∈ s.documents, h.dataset = d.dataset ∧ h.filename = d.filename := by
  have search : ∀ t, ∀ h ∈ s.search t, ∃ d ∈ s.documents, h.dataset = d.dataset ∧ h.filename = d.filename := by
    intro t h hh
    obtain ⟨d, hd, hf⟩ := List.mem_filterMap.1 hh
    exact ⟨d, hd, s.document_of_hit? hf⟩
  -- merging keeps the document of the hit that came first
  have absorb : ∀ g h : Hit, (∃ d ∈ s.documents, g.dataset = d.dataset ∧ g.filename = d.filename) →
      (∃ d ∈ s.documents, h.dataset = d.dataset ∧ h.filename = d.filename) →
      ∃ d ∈ s.documents, (g.absorb h).dataset = d.dataset ∧ (g.absorb h).filename = d.filename :=
    fun _ _ hg _ => hg
  refine Backend.forall_evaluate _ absorb (fun h hp => ?_) (fun pair _ h hp => ?_) h hh
  · rw [primaryHits_eq] at hp
    split at hp
    · refine forall_group absorb (fun g hg => ?_) h hp
      obtain ⟨t, -, ht⟩ := List.mem_flatMap.1 hg
      exact search t g ht
    · split at hp
      · cases hp
      · exact search _ h (List.mem_of_mem_filter hp)
  · obtain ⟨d, hd, hf⟩ := List.mem_filterMap.1 hp
    exact ⟨d, hd, s.document_of_hit? hf⟩

end Scanner

/-! ## Requests that name a dataset -/

theorem Request.dataset_of_admits {r : Request} {d : UInt32} (hr : r.dataset = some d) {h : Hit}
    (ha : r.admits h = true) : h.dataset = d := by
  simp only [Request.admits, hr, Option.all_some, Bool.and_eq_true, beq_iff_eq] at ha
  exact ha.1.1

/-- Scanners answer alike if the same hits match, which are sorted, counted and cut alike. -/
theorem searchPlan_congr {s s' : Scanner} {p : Plan} {r : Request}
    (h : (Backend.memory s).matching p r = (Backend.memory s').matching p r) :
    (Backend.memory s).searchPlan p r = (Backend.memory s').searchPlan p r := by
  unfold Backend.searchPlan
  rw [h]
  rfl

namespace Scanner

variable (s : Scanner)

theorem restrictFiles_eq_within {d : UInt32} (hs : s.OwnsFiles d) :
    s.restrictFiles (fun f => s.documents.any fun own => own.dataset = d && own.filename = f) = s.within d := by
  unfold restrictFiles within restrict
  congr 1
  refine List.filter_congr fun e he => ?_
  rw [Bool.eq_iff_iff]
  simp only [List.any_eq_true, Bool.and_eq_true, decide_eq_true_eq]
  constructor
  · rintro ⟨own, hown, hd, hf⟩
    by_contra hne
    exact hs own hown e he hd hne hf
  · exact fun hd => ⟨e, he, hd, rfl⟩

/-- If no other dataset has its filenames, the hits that match are those of the dataset alone. -/
theorem matching_within {d : UInt32} (hs : s.OwnsFiles d) {r : Request} (hr : r.dataset = some d) (p : Plan) :
    (Backend.memory s).matching p r = (Backend.memory (s.within d)).matching p r := by
  unfold Backend.matching
  rw [← s.restrictFiles_eq_within hs, evaluate_restrictFiles, List.filter_filter]
  congr 1
  refine List.filter_congr fun h hh => ?_
  obtain ⟨e, he, hd, hf⟩ := s.document_of_evaluate hh
  cases ha : r.admits h with
  | false => rfl
  | true =>
    -- the document of a hit that is admitted is of the dataset
    have hed : e.dataset = d := hd ▸ Request.dataset_of_admits hr ha
    rw [Bool.true_and, eq_comm, List.any_eq_true]
    exact ⟨e, he, by simp [hed, hf]⟩

/-- A term alone finds in a dataset what it finds in the documents of the dataset. -/
theorem matching_within_of_alone {p : Plan} (hp : p.primary.length ≤ 1) (hc : p.combinator ≠ .or)
    (he : p.exclusions = []) (hx : p.proximity = []) {d : UInt32} {r : Request} (hr : r.dataset = some d) :
    (Backend.memory s).matching p r = (Backend.memory (s.within d)).matching p r := by
  have alone : ∀ s : Scanner, (Backend.memory s).evaluate p = (p.primary.head?.map s.search).getD [] := by
    intro s
    rw [Backend.evaluate_eq, if_pos hx, Backend.keptHits, primaryHits_eq, if_neg hc, he]
    rcases hq : p.primary with _ | ⟨first, _ | ⟨second, rest⟩⟩
    · rfl
    · simp [Backend.filesHolding, exclude, intersect]
    · simp [hq] at hp
  unfold Backend.matching
  rw [alone, alone]
  rcases p.primary.head? with _ | t
  · rfl
  · congr 1
    show (s.search t).filter r.admits = ((s.within d).search t).filter r.admits
    rw [search_within, List.filter_filter]
    refine List.filter_congr fun h _ => ?_
    cases ha : r.admits h with
    | false => rfl
    | true => simp [Request.dataset_of_admits hr ha]

end Scanner

/-! ## Datasets that share a filename -/

/-- The text without characters, which occurs between any two characters. -/
def Term.everywhere : Term := ⟨"", false⟩

/-- The plan of the text without characters, with its hits merged. -/
def Plan.everywhere : Plan := ⟨[.everywhere], .or, [], [], []⟩

/-- The request for all hits of a dataset, `size` on a page. -/
def Request.ofDataset (d : UInt32) (size : Nat) : Request :=
  { Request.ofQuery "" with dataset := some d, perPage := size }

namespace Scanner

variable (s : Scanner)

theorem evaluate_everywhere : (Backend.memory s).evaluate .everywhere = group (s.search .everywhere) := by
  have primary : (Backend.memory s).primaryHits .everywhere = group (s.search .everywhere) := by
    rw [primaryHits_eq]
    simp [Plan.everywhere]
  have kept : (Backend.memory s).keptHits .everywhere = group (s.search .everywhere) := by
    rw [Backend.keptHits, primary]
    simp [Plan.everywhere, Backend.filesHolding, exclude]
  rw [Backend.evaluate_eq, kept]
  rfl

/-- Where parts of words match, the text without characters is found in every document. -/
theorem matchesOf_everywhere_pos (hw : s.options.wholeWord = false) {d : Document} (hd : d ∈ s.documents) :
    0 < matchesOf d.filename (s.search .everywhere) := by
  have spans : ((s.pattern .everywhere false).spans d.text.toList).length ≠ 0 := by
    unfold Scan.Pattern.spans
    cases d.text.toList <;>
      simp [Scan.Pattern.spansFrom, Scan.Pattern.occursAt, Scan.Pattern.startsWith, pattern, Term.everywhere]
  obtain ⟨h, hh⟩ : ∃ h, s.find? (s.pattern .everywhere s.options.wholeWord) d = some h := by
    unfold find? hit?
    rw [hw, if_neg]
    · exact ⟨_, rfl⟩
    · rw [List.isEmpty_iff, List.map_eq_nil_iff]
      exact fun h => spans (by rw [h]; rfl)
  have hm : h ∈ s.search .everywhere := List.mem_filterMap.2 ⟨d, hd, hh⟩
  rw [← (s.document_of_hit? hh).2]
  refine matchesOf_pos hm ?_
  exact s.matchCount_pos_of_hit? hh

end Scanner

/-- On one large page the results count what the hits that match count. -/
theorem matchesOf_results (s : Scanner) (p : Plan) (d : UInt32) (f : String) {size : Nat}
    (hs : ((Backend.memory s).matching p (.ofDataset d size)).length ≤ size) :
    matchesOf f ((Backend.memory s).searchPlan p (.ofDataset d size)).results =
      matchesOf f (((Backend.memory s).evaluate p).filter (Request.ofDataset d size).admits) := by
  have truncated : ∀ hits : List Hit, ∀ n,
      matchesOf f (hits.map fun h => { h with contexts := h.contexts.take n }) = matchesOf f hits := by
    intro hits n
    induction hits with
    | nil => rfl
    | cons h rest ih => rw [List.map_cons, matchesOf_cons, ih, matchesOf_cons]
  have page : Backend.pageOf ((Backend.memory s).matching p (.ofDataset d size)) 1 (max size 1) =
      (Backend.memory s).matching p (.ofDataset d size) := by
    rw [Backend.pageOf, Nat.sub_self, Nat.zero_mul, List.drop_zero, List.take_of_length_le]
    omega
  calc matchesOf f ((Backend.memory s).searchPlan p (.ofDataset d size)).results
      = matchesOf f ((Backend.memory s).matching p (.ofDataset d size)) := by
        rw [← page]
        exact truncated _ _
    _ = _ := matchesOf_perm (List.mergeSort_perm ..) f

namespace Scanner

variable (s : Scanner)

/-- A filename that two datasets share counts something in the one, and more in both together. -/
theorem exists_matchesOf_within_lt (hw : s.options.wholeWord = false) {d : UInt32} (hs : ¬ s.OwnsFiles d) :
    ∃ f, 0 < matchesOf f ((s.within d).search .everywhere) ∧
      matchesOf f ((s.within d).search .everywhere) < matchesOf f (s.search .everywhere) := by
  unfold OwnsFiles at hs
  push Not at hs
  obtain ⟨own, hown, other, hother, hd, hne, hf⟩ := hs
  refine ⟨own.filename, ?_⟩
  -- what is counted is counted in the dataset or outside of it
  have total := matchesOf_filter_add own.filename (·.dataset = d) (s.search .everywhere)
  rw [← search_within, ← search_without] at total
  have inside : 0 < matchesOf own.filename ((s.within d).search .everywhere) :=
    matchesOf_everywhere_pos (s.within d) hw (List.mem_filter.2 ⟨hown, by simpa using hd⟩)
  have outside : 0 < matchesOf own.filename ((s.restrict (·.dataset ≠ d)).search .everywhere) := by
    rw [hf]
    exact matchesOf_everywhere_pos (s.restrict (·.dataset ≠ d)) hw (List.mem_filter.2 ⟨hother, by simpa using hne⟩)
  exact ⟨inside, by omega⟩

/-- The documents of a dataset alone have no hit that the dataset's filter leaves out. -/
theorem filter_admits_within (d : UInt32) (size : Nat) :
    (group ((s.within d).search .everywhere)).filter (Request.ofDataset d size).admits =
      group ((s.within d).search .everywhere) := by
  rw [List.filter_eq_self]
  refine forall_group (fun g h hg _ => hg) fun h hh => ?_
  rw [search_within] at hh
  have hd := (List.mem_filter.1 hh).2
  simpa [Request.admits, Request.ofDataset, Request.ofQuery] using hd

/-- If another dataset has a filename of the dataset, some request for the dataset tells. -/
theorem exists_answer_ne (hw : s.options.wholeWord = false) {d : UInt32} (hs : ¬ s.OwnsFiles d) :
    ∃ p r, r.dataset = some d ∧
      (Backend.memory s).searchPlan p r ≠ (Backend.memory (s.within d)).searchPlan p r := by
  obtain ⟨f, inside, more⟩ := s.exists_matchesOf_within_lt hw hs
  -- a page for all hits that match, with either scanner
  let size := max ((Backend.memory s).matching .everywhere (.ofDataset d 0)).length
    ((Backend.memory (s.within d)).matching .everywhere (.ofDataset d 0)).length
  refine ⟨.everywhere, .ofDataset d size, rfl, fun h => ?_⟩
  have answers : matchesOf f ((Backend.memory s).searchPlan .everywhere (.ofDataset d size)).results =
      matchesOf f ((Backend.memory (s.within d)).searchPlan .everywhere (.ofDataset d size)).results := by rw [h]
  rw [matchesOf_results s _ d f (le_max_left ..), matchesOf_results (s.within d) _ d f (le_max_right ..),
    evaluate_everywhere, evaluate_everywhere, filter_admits_within, matchesOf_group] at answers
  have once : (filesOf (group (s.search .everywhere))).Nodup := by
    rw [filesOf_group]
    exact nodup_eraseDups _
  -- merged, the filename is left out or counts all of its matches
  rcases matchesOf_filter_of_nodup f (Request.ofDataset d size).admits once with none | all
  · omega
  · rw [matchesOf_group] at all
    omega

end Scanner

/-! ## The filter and the dataset alone -/

/--
A request that names a dataset is answered from the documents of that dataset alone, whatever the options, the
plan and the other wishes, exactly if no other dataset has a filename of it. A plan of one term is always
answered so.
-/
theorem searchPlan_dataset_iff (documents : List Document) (d : UInt32) :
    ((∀ (options : Scan.Options) (p : Plan) (r : Request), r.dataset = some d →
        (Backend.memory ⟨documents, options⟩).searchPlan p r =
          (Backend.memory ⟨documents.filter (·.dataset = d), options⟩).searchPlan p r) ↔
      ∀ own ∈ documents, ∀ other ∈ documents,
        own.dataset = d → other.dataset ≠ d → own.filename ≠ other.filename) ∧
    ∀ (options : Scan.Options) (p : Plan) (r : Request), r.dataset = some d →
      p.primary.length ≤ 1 → p.combinator ≠ .or → p.exclusions = [] → p.proximity = [] →
      (Backend.memory ⟨documents, options⟩).searchPlan p r =
        (Backend.memory ⟨documents.filter (·.dataset = d), options⟩).searchPlan p r := by
  refine ⟨⟨fun same => ?_, fun owns options p r hr => ?_⟩, fun options p r hr hp hc he hx => ?_⟩
  · by_contra shared
    obtain ⟨p, r, hr, hne⟩ := Scanner.exists_answer_ne ⟨documents, ⟨false, false, 0⟩⟩ rfl shared
    exact hne (same _ p r hr)
  · exact searchPlan_congr (Scanner.matching_within ⟨documents, options⟩ owns hr p)
  · exact searchPlan_congr (Scanner.matching_within_of_alone ⟨documents, options⟩ hp hc he hx hr)

/-- One filename in two datasets, each with one of two words. -/
def twoDatasets : List Document :=
  [⟨1, 1, "a.pdf", "DataSet 1/a.pdf", 1, "x", none⟩, ⟨2, 2, "a.pdf", "DataSet 2/a.pdf", 1, "y", none⟩]

/-- The plan of both words. -/
def bothWords : Plan := ⟨[⟨"x", false⟩, ⟨"y", false⟩], .and, [], [], []⟩

/-- The word of the other dataset lets a document of the first dataset through. -/
theorem searchPlan_twoDatasets :
    let options : Scan.Options := ⟨false, false, 300⟩
    let r := Request.ofDataset 1 20
    ((Backend.memory ⟨twoDatasets, options⟩).searchPlan bothWords r).total = 1 ∧
      ((Backend.memory ⟨twoDatasets.filter (·.dataset = 1), options⟩).searchPlan bothWords r).total = 0 := by
  decide +kernel

end Concordance
