/-
What a plan finds on a scanner, said from what its terms and pairs find: which filenames, how many matches
for each, and in which order. Nothing is assumed of the documents, so filenames may repeat among them.
-/
import Concordance.Proofs.Engine.Evaluate

namespace Concordance.Scanner

variable (s : Scanner)

/-- The filenames of the documents that hold a term. -/
def files (t : Term) : List String := filesOf (s.search t)

/-- The hits for a pair. -/
def near (pair : ProximityPair) : List Hit := s.searchProximity pair.first pair.second pair.maxWords

/-! ## Primary terms -/

theorem mem_filesOf_primaryHits {p : Plan} {f : String} :
    f ∈ filesOf ((Backend.memory s).primaryHits p) ↔ p.Selects s.files f := by
  rw [primaryHits_eq]
  split
  · rename_i hc
    rw [Plan.selects_of_or hc, filesOf_group, List.mem_eraseDups, filesOf_flatMap, List.mem_flatMap]
    rfl
  · rename_i hc
    rw [Plan.selects_of_ne_or hc]
    rcases p.primary with _ | ⟨first, rest⟩
    · simp
    · simp only [mem_filesOf_intersect, List.forall_mem_map, ne_eq, reduceCtorEq, not_false_eq_true, true_and,
        List.forall_mem_cons]
      rfl

theorem mem_filesOf_keptHits {p : Plan} {f : String} :
    f ∈ filesOf ((Backend.memory s).keptHits p) ↔ p.Keeps s.files f := by
  rw [Backend.mem_filesOf_keptHits, mem_filesOf_primaryHits]
  rfl

/-- The filenames of primary hits, in the order in which they are seen; OR names each once. -/
theorem filesOf_primaryHits (p : Plan) :
    filesOf ((Backend.memory s).primaryHits p) =
      (if p.combinator = .or then (p.candidates s.files).eraseDups else p.candidates s.files).filter
        (p.Selects s.files ·) := by
  rw [primaryHits_eq]
  split
  · rename_i hc
    rw [filesOf_group, filesOf_flatMap, List.filter_eq_self.2]
    · rw [Plan.candidates, if_pos hc]
      rfl
    · intro f hf
      rw [Plan.candidates, if_pos hc, List.mem_eraseDups, List.mem_flatMap] at hf
      simpa [Plan.selects_of_or hc] using hf
  · rename_i hc
    rw [Plan.candidates, if_neg hc]
    rcases hp : p.primary with _ | ⟨first, rest⟩
    · rfl
    · rw [filesOf_intersect]
      refine List.filter_congr fun f hf => ?_
      rw [Bool.eq_iff_iff]
      simp only [List.all_map, List.all_eq_true, Function.comp_apply, hasFile_eq_true, decide_eq_true_eq,
        Plan.selects_of_ne_or hc, hp, List.forall_mem_cons]
      exact ⟨fun h => ⟨by simp, hf, h⟩, fun h => h.2.2⟩

/-- The filenames that are kept, in the order in which they are seen; OR names each once. -/
theorem filesOf_keptHits (p : Plan) :
    filesOf ((Backend.memory s).keptHits p) =
      (if p.combinator = .or then (p.candidates s.files).eraseDups else p.candidates s.files).filter
        (p.Keeps s.files ·) := by
  -- the candidates hold all filenames selected, so leaving out those not kept is leaving out the excluded
  rw [Backend.keptHits, filesOf_exclude, filesOf_primaryHits, List.filter_filter]
  refine List.filter_congr fun f _ => ?_
  rw [Bool.eq_iff_iff]
  simp only [Bool.and_eq_true, Bool.not_eq_true', List.contains_eq_mem, decide_eq_false_iff_not,
    Backend.mem_filesHolding, decide_eq_true_eq, not_exists, not_and]
  exact and_comm

/-- A filename that is kept counts what the primary terms count for it, and no other counts anything. -/
theorem matchesOf_keptHits (p : Plan) (f : String) :
    matchesOf f ((Backend.memory s).keptHits p) =
      if p.Keeps s.files f then p.count fun t => matchesOf f (s.search t) else 0 := by
  split
  · rename_i hk
    have hn : f ∉ (Backend.memory s).filesHolding p.exclusions := by
      rw [Backend.mem_filesHolding]
      rintro ⟨t, ht, hf⟩
      exact hk.2 t ht hf
    rw [Backend.keptHits, matchesOf_exclude, if_neg hn, primaryHits_eq]
    unfold Plan.count
    split
    · rw [matchesOf_group, matchesOf_flatMap]
    · rename_i hc
      have hs := (Plan.selects_of_ne_or hc).1 hk.1
      rcases hp : p.primary with _ | ⟨first, rest⟩
      · rfl
      · have hall : (rest.map s.search).all (hasFile · f) = true := by
          simp only [List.all_map, List.all_eq_true, Function.comp_apply, hasFile_eq_true]
          intro t ht
          exact hs.2 t (by simp [hp, ht])
        rw [matchesOf_intersect, if_pos hall]
        rfl
  · rename_i hk
    exact matchesOf_eq_zero fun hf => hk (s.mem_filesOf_keptHits.1 hf)

/-! ## Plans -/

/--
For every plan and every scanner: the filenames found are those that the primary terms keep and those of
the pairs; each counts what the primary terms count for it if they keep it, and what the pairs count for it;
those that the primary terms keep come first, in the order in which they are first seen, and then those that
only pairs have; and every hit counts its contexts.
-/
theorem evaluate_set_algebra (p : Plan) :
    let hits := (Backend.memory s).evaluate p
    (∀ f, f ∈ filesOf hits ↔ p.Keeps s.files f ∨ ∃ pair ∈ p.proximity, f ∈ filesOf (s.near pair)) ∧
    (∀ f, matchesOf f hits =
      (if p.Keeps s.files f then p.count fun t => matchesOf f (s.search t) else 0) +
        (p.proximity.map fun pair => matchesOf f (s.near pair)).sum) ∧
    (filesOf hits =
      (if p.Merges then ((p.candidates s.files).filter (p.Keeps s.files ·)).eraseDups
        else (p.candidates s.files).filter (p.Keeps s.files ·)) ++
      ((p.proximity.flatMap fun pair => filesOf (s.near pair)).filter (¬ p.Keeps s.files ·)).eraseDups) ∧
    ∀ h ∈ hits, h.matchCount = h.contexts.length := by
  intro hits
  refine ⟨fun f => ?_, fun f => ?_, ?_, ?_⟩
  · rw [Backend.mem_filesOf_evaluate, mem_filesOf_keptHits]
    rfl
  · rw [Backend.matchesOf_evaluate, matchesOf_keptHits]
    rfl
  · -- for OR the filenames kept are distinct already
    have first : (filesOf ((Backend.memory s).keptHits p)).eraseDups =
        ((p.candidates s.files).filter (p.Keeps s.files ·)).eraseDups := by
      rw [filesOf_keptHits]
      split
      · rw [eraseDups_filter, eraseDups_eraseDups, eraseDups_filter]
      · rfl
    rw [Backend.filesOf_evaluate]
    by_cases hp : p.proximity = []
    · rw [if_pos hp, filesOf_keptHits, hp]
      by_cases hc : p.combinator = .or
      · rw [if_pos hc, if_pos (show p.Merges from Or.inr hc), eraseDups_filter]
        simp
      · rw [if_neg hc, if_neg (show ¬ p.Merges from fun h => h.elim (· hp) hc)]
        simp
    · rw [if_neg hp, if_pos (show p.Merges from Or.inl hp), List.eraseDups_append, first]
      congr 2
      refine List.filter_congr fun f _ => ?_
      rw [Bool.eq_iff_iff]
      simp [mem_filesOf_keptHits]
  · refine Backend.forall_evaluate _ (fun g h hg hh => ?_) (fun h => s.matchCount_of_primaryHits)
      fun pair _ h => s.matchCount_of_searchProximity
    simp [Hit.absorb, hg, hh]

end Concordance.Scanner
