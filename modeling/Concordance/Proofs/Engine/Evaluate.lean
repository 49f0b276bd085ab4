/-
Evaluating a plan is set algebra on filenames with exact counts. On any backend the hits of a plan are
those of its primary terms less those of its exclusions, and if pairs are asked for, grouped with the hits
of the pairs. On a scanner the primary terms select the union of their documents for OR and the
intersection otherwise, and what is counted for a filename is what the terms and pairs count for it.
-/
import Concordance.Engine.Evaluate
import Concordance.Proofs.Scan.Spans

namespace Concordance

/-! ## What a plan selects -/

namespace Plan

/-- Is a filename among those of some primary term, or if the plan combines by AND, of all of them? -/
def Selects (p : Plan) (files : Term → List String) (f : String) : Prop :=
  if p.combinator = .or then ∃ t ∈ p.primary, f ∈ files t
  else p.primary ≠ [] ∧ ∀ t ∈ p.primary, f ∈ files t

/-- Is a filename selected, and not among those of an exclusion? -/
def Keeps (p : Plan) (files : Term → List String) (f : String) : Prop :=
  p.Selects files f ∧ ∀ t ∈ p.exclusions, f ∉ files t

/-- What the primary terms count: all of them together for OR, else the first alone. -/
def count (p : Plan) (matchesFor : Term → Nat) : Nat :=
  if p.combinator = .or then (p.primary.map matchesFor).sum else (p.primary.head?.map matchesFor).getD 0

/-- The filenames that the primary hits come from, in the order in which they are seen. -/
def candidates (p : Plan) (files : Term → List String) : List String :=
  if p.combinator = .or then p.primary.flatMap files else (p.primary.head?.map files).getD []

/-- Are the hits of the plan merged, so that no filename repeats? -/
def Merges (p : Plan) : Prop := p.proximity ≠ [] ∨ p.combinator = .or

theorem selects_of_or {p : Plan} (h : p.combinator = .or) {files : Term → List String} {f : String} :
    p.Selects files f ↔ ∃ t ∈ p.primary, f ∈ files t := by
  rw [Selects, if_pos h]

theorem selects_of_ne_or {p : Plan} (h : p.combinator ≠ .or) {files : Term → List String} {f : String} :
    p.Selects files f ↔ p.primary ≠ [] ∧ ∀ t ∈ p.primary, f ∈ files t := by
  rw [Selects, if_neg h]

instance (p : Plan) (files : Term → List String) (f : String) : Decidable (p.Selects files f) := by
  unfold Selects
  infer_instance

instance (p : Plan) (files : Term → List String) (f : String) : Decidable (p.Keeps files f) := by
  unfold Keeps
  infer_instance

instance (p : Plan) : Decidable p.Merges := by
  unfold Merges
  infer_instance

end Plan

/-! ## Leaving out hits -/

@[simp] theorem hasFile_eq_true {hits : List Hit} {f : String} : hasFile hits f = true ↔ f ∈ filesOf hits := by
  simp [hasFile, mem_filesOf]

theorem filesOf_intersect (hits : List Hit) (others : List (List Hit)) :
    filesOf (intersect hits others) = (filesOf hits).filter fun f => others.all (hasFile · f) :=
  filesOf_filter (fun f => others.all (hasFile · f)) hits

theorem matchesOf_intersect (f : String) (hits : List Hit) (others : List (List Hit)) :
    matchesOf f (intersect hits others) = if others.all (hasFile · f) then matchesOf f hits else 0 :=
  matchesOf_filter (fun f => others.all (hasFile · f)) f hits

theorem mem_filesOf_intersect {f : String} {hits : List Hit} {others : List (List Hit)} :
    f ∈ filesOf (intersect hits others) ↔ f ∈ filesOf hits ∧ ∀ o ∈ others, f ∈ filesOf o := by
  simp [filesOf_intersect]

theorem filesOf_exclude (hits : List Hit) (excluded : List String) :
    filesOf (exclude hits excluded) = (filesOf hits).filter fun f => !excluded.contains f :=
  filesOf_filter (fun f => !excluded.contains f) hits

/-- Without hits nothing can be left out, and without excluded filenames nothing is. -/
theorem exclude_eq_self {hits : List Hit} {excluded : List String} (h : hits = [] ∨ excluded = []) :
    exclude hits excluded = hits := by
  rcases h with rfl | rfl <;> simp [exclude]

theorem matchesOf_exclude (f : String) (hits : List Hit) (excluded : List String) :
    matchesOf f (exclude hits excluded) = if f ∈ excluded then 0 else matchesOf f hits := by
  rw [exclude, matchesOf_filter (fun f => !excluded.contains f) f hits]
  by_cases hf : f ∈ excluded <;> simp [hf]

/-! ## Evaluation on any backend -/

namespace Backend

variable (b : Backend)

/-- The hits for the primary terms that no exclusion leaves out. -/
def keptHits (p : Plan) : List Hit := exclude (b.primaryHits p) (b.filesHolding p.exclusions)

/-- The hits for a pair. -/
def pairHits (pair : ProximityPair) : List Hit := b.searchProximity pair.first pair.second pair.maxWords

/-- Where exclusions are not searched for, they would leave out nothing. -/
theorem keptHits_eq_ite (p : Plan) :
    b.keptHits p =
      if !(b.primaryHits p).isEmpty && !p.exclusions.isEmpty then
        exclude (b.primaryHits p) (b.filesHolding p.exclusions)
      else b.primaryHits p := by
  split
  · rfl
  · rename_i skipped
    have nothing : b.primaryHits p = [] ∨ p.exclusions = [] := by
      simpa only [Bool.and_eq_true, Bool.not_eq_true', List.isEmpty_eq_false_iff, not_and_or, not_not] using skipped
    exact exclude_eq_self (nothing.imp_right fun none => by rw [none]; rfl)

theorem evaluate_eq (p : Plan) :
    b.evaluate p =
      if p.proximity = [] then b.keptHits p else group (b.keptHits p ++ p.proximity.flatMap b.pairHits) := by
  unfold evaluate
  dsimp only
  rw [← keptHits_eq_ite]
  cases hp : p.proximity with
  | nil => rfl
  | cons pair rest =>
    rw [if_neg (by simp)]
    show ((pair :: rest).foldl (fun m pair => Merger.addAll m (b.pairHits pair)) _).toList = _
    rw [Merger.foldl_addAll, Merger.ofHits, Merger.addAll_addAll]
    exact Merger.toList_ofHits _

theorem mem_filesHolding {f : String} {terms : List Term} :
    f ∈ b.filesHolding terms ↔ ∃ t ∈ terms, f ∈ filesOf (b.search t) := by
  simp [filesHolding, filesOf]

theorem mem_filesOf_keptHits {f : String} {p : Plan} :
    f ∈ filesOf (b.keptHits p) ↔ f ∈ filesOf (b.primaryHits p) ∧ ∀ t ∈ p.exclusions, f ∉ filesOf (b.search t) := by
  simp [keptHits, filesOf_exclude, mem_filesHolding]

theorem filesOf_evaluate (p : Plan) :
    filesOf (b.evaluate p) =
      if p.proximity = [] then filesOf (b.keptHits p)
      else (filesOf (b.keptHits p) ++ p.proximity.flatMap fun pair => filesOf (b.pairHits pair)).eraseDups := by
  rw [evaluate_eq]
  split
  · rfl
  · rw [filesOf_group, filesOf_append, filesOf_flatMap]

/-- A plan finds what its primary terms find less its exclusions, and what its pairs find. -/
theorem mem_filesOf_evaluate {f : String} {p : Plan} :
    f ∈ filesOf (b.evaluate p) ↔
      f ∈ filesOf (b.keptHits p) ∨ ∃ pair ∈ p.proximity, f ∈ filesOf (b.pairHits pair) := by
  rw [filesOf_evaluate]
  split
  · rename_i hp
    simp [hp]
  · simp [List.mem_eraseDups]

theorem matchesOf_evaluate (f : String) (p : Plan) :
    matchesOf f (b.evaluate p) =
      matchesOf f (b.keptHits p) + (p.proximity.map fun pair => matchesOf f (b.pairHits pair)).sum := by
  rw [evaluate_eq]
  split
  · rename_i hp
    simp [hp]
  · rw [matchesOf_group, matchesOf_append, matchesOf_flatMap]

/-- What holds of all hits of searches and is kept by merging holds of all hits of a plan. -/
theorem forall_evaluate {P : Hit → Prop} (absorb : ∀ g h, P g → P h → P (g.absorb h)) {p : Plan}
    (primary : ∀ h ∈ b.primaryHits p, P h) (pairs : ∀ pair ∈ p.proximity, ∀ h ∈ b.pairHits pair, P h) :
    ∀ h ∈ b.evaluate p, P h := by
  have kept : ∀ h ∈ b.keptHits p, P h := fun h hh => primary h (List.mem_of_mem_filter hh)
  rw [evaluate_eq]
  split
  · exact kept
  · refine forall_group absorb fun h hh => ?_
    rcases List.mem_append.1 hh with hh | hh
    · exact kept h hh
    · obtain ⟨pair, hpair, hh⟩ := List.mem_flatMap.1 hh
      exact pairs pair hpair h hh

end Backend

/-! ## Searches of a scanner -/

namespace Scanner

variable (s : Scanner)

theorem searchMultiple_or (terms : List Term) : s.searchMultiple terms .or = group (terms.flatMap s.search) := by
  cases terms with
  | nil => rfl
  | cons first rest =>
    show ((first :: rest).foldl (fun m t => m.addAll (s.search t)) Merger.empty).toList = _
    rw [Merger.foldl_addAll]
    exact Merger.toList_ofHits _

/-- The files that remain are those that hold all the terms, also those not searched for. -/
theorem searchWhileAny_remaining (remaining : List String) (terms : List Term) :
    (s.searchWhileAny remaining terms).2 = remaining.filter fun f => (terms.map s.search).all (hasFile · f) := by
  induction terms generalizing remaining with
  | nil => simp [searchWhileAny]
  | cons t rest ih =>
    rw [searchWhileAny]
    split
    · rename_i none
      rw [List.isEmpty_iff.1 none]
      rfl
    · dsimp only
      rw [ih, List.filter_filter]
      refine List.filter_congr fun f _ => ?_
      rw [List.map_cons, List.all_cons, Bool.and_comm]

/-- If files remain, all terms have been searched for. -/
theorem searchWhileAny_others {remaining : List String} {terms : List Term}
    (h : (s.searchWhileAny remaining terms).2 ≠ []) : (s.searchWhileAny remaining terms).1 = terms.map s.search := by
  induction terms generalizing remaining with
  | nil => rfl
  | cons t rest ih =>
    rw [searchWhileAny] at h ⊢
    split at h
    · rename_i none
      exact absurd (List.isEmpty_iff.1 none) h
    · rename_i some
      rw [if_neg some]
      exact congrArg (s.search t :: ·) (ih h)

/-- Stopping early changes nothing: a hit is kept if its file is among those that all other terms hold. -/
theorem searchMultiple_and {combinator : Combinator} (h : combinator ≠ .or) (first : Term) (rest : List Term) :
    s.searchMultiple (first :: rest) combinator = intersect (s.search first) (rest.map s.search) := by
  have loop : s.searchMultiple (first :: rest) combinator =
      if (s.searchWhileAny (filesOf (s.search first)) rest).2.isEmpty then []
      else intersect (s.search first) (s.searchWhileAny (filesOf (s.search first)) rest).1 := by
    cases combinator with
    | or => exact absurd rfl h
    | single => rfl
    | and => rfl
  have remaining : (s.searchWhileAny (filesOf (s.search first)) rest).2 =
      filesOf (intersect (s.search first) (rest.map s.search)) := by
    rw [searchWhileAny_remaining, filesOf_intersect]
  rw [loop]
  split
  · rename_i none
    rw [remaining, List.isEmpty_iff] at none
    exact (List.map_eq_nil_iff.1 none).symm
  · rename_i some
    rw [s.searchWhileAny_others (by simpa using some)]

/-- The hits of the primary terms: grouped for OR, else those of the first term that all terms have. -/
theorem primaryHits_eq (p : Plan) :
    (Backend.memory s).primaryHits p =
      if p.combinator = .or then group (p.primary.flatMap s.search)
      else match p.primary with
        | [] => []
        | first :: rest => intersect (s.search first) (rest.map s.search) := by
  unfold Backend.primaryHits
  split
  · rename_i hp
    simp [hp]
  · rename_i t hc hp
    simp [hc, hp, Backend.search, intersect]
  · rename_i hne _
    rcases hp : p.primary with _ | ⟨first, rest⟩
    · exact absurd hp hne
    · split
      · rename_i hc
        rw [hc]
        exact s.searchMultiple_or (first :: rest)
      · rename_i hc
        exact s.searchMultiple_and hc first rest

/-- What holds of all hits for a term and is kept by merging holds of all hits for the primary terms. -/
theorem forall_primaryHits {P : Hit → Prop} (absorb : ∀ g h, P g → P h → P (g.absorb h))
    (search : ∀ t, ∀ h ∈ s.search t, P h) (p : Plan) : ∀ h ∈ (Backend.memory s).primaryHits p, P h := by
  intro h hh
  rw [primaryHits_eq] at hh
  split at hh
  · refine forall_group absorb (fun g hg => ?_) h hh
    obtain ⟨t, -, ht⟩ := List.mem_flatMap.1 hg
    exact search t g ht
  · split at hh
    · cases hh
    · exact search _ h (List.mem_of_mem_filter hh)

theorem matchCount_of_primaryHits {p : Plan} {h : Hit} (hh : h ∈ (Backend.memory s).primaryHits p) :
    h.matchCount = h.contexts.length := by
  refine s.forall_primaryHits (P := fun h => h.matchCount = h.contexts.length) ?_ ?_ p h hh
  · intro g k hg hk
    simp [Hit.absorb, hg, hk]
  · exact fun t h => s.matchCount_of_search

end Scanner

end Concordance
