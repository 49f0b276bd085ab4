/-
Merging is grouping by filename: a merger keeps exactly the list that results from merging hits into a
list one by one, where each hit is absorbed by the hit of its filename or comes last. So the merged list
has each filename once, in the order in which the filenames first came, and counts for each filename what
all hits together count for it.
-/
import Concordance.Merge
import Mathlib.Tactic

namespace Concordance

/-! ## Names without repetition -/

theorem eraseDups_filter (p : String → Bool) (l : List String) :
    (l.filter p).eraseDups = l.eraseDups.filter p := by
  induction l using List.reverseRecOn with
  | nil => rfl
  | append_singleton l a ih =>
    rw [List.filter_append, List.eraseDups_append, ih, List.eraseDups_append, List.filter_append]
    congr 1
    by_cases ha : a ∈ l <;> cases hp : p a <;>
      simp [List.removeAll, List.eraseDups_cons, List.mem_filter, ha, hp]

theorem eraseDups_eraseDups (l : List String) : l.eraseDups.eraseDups = l.eraseDups := by
  induction l using List.reverseRecOn with
  | nil => rfl
  | append_singleton l a ih =>
    rw [List.eraseDups_append, List.eraseDups_append, ih]
    by_cases ha : a ∈ l <;> simp [List.removeAll, List.eraseDups_cons, List.mem_eraseDups, ha]

theorem nodup_eraseDups (l : List String) : l.eraseDups.Nodup := by
  induction l using List.reverseRecOn with
  | nil => simp
  | append_singleton l a ih =>
    rw [List.eraseDups_append, List.nodup_append]
    refine ⟨ih, ?_, ?_⟩
    · by_cases ha : a ∈ l <;> simp [List.removeAll, List.eraseDups_cons, ha]
    · intro x hx y hy
      rw [List.mem_eraseDups] at hx hy
      rintro rfl
      simp [List.removeAll, hx] at hy

/-! ## What hits say of a filename -/

/-- The filenames of hits, in their order. -/
def filesOf (hits : List Hit) : List String := hits.map (·.filename)

/-- The matches that hits count for a filename. -/
def matchesOf (f : String) (hits : List Hit) : Nat := ((hits.filter (·.filename = f)).map (·.matchCount)).sum

@[simp] theorem filesOf_nil : filesOf [] = [] := rfl

@[simp] theorem filesOf_cons (h : Hit) (hits : List Hit) : filesOf (h :: hits) = h.filename :: filesOf hits := rfl

@[simp] theorem filesOf_append (a b : List Hit) : filesOf (a ++ b) = filesOf a ++ filesOf b := by
  simp [filesOf]

theorem mem_filesOf {f : String} {hits : List Hit} : f ∈ filesOf hits ↔ ∃ h ∈ hits, h.filename = f := by
  simp [filesOf]

@[simp] theorem matchesOf_nil (f : String) : matchesOf f [] = 0 := rfl

@[simp] theorem matchesOf_cons (f : String) (h : Hit) (hits : List Hit) :
    matchesOf f (h :: hits) = (if h.filename = f then h.matchCount else 0) + matchesOf f hits := by
  unfold matchesOf
  by_cases hf : h.filename = f <;> simp [hf]

@[simp] theorem matchesOf_append (f : String) (a b : List Hit) :
    matchesOf f (a ++ b) = matchesOf f a + matchesOf f b := by
  simp [matchesOf]

theorem matchesOf_eq_zero {f : String} {hits : List Hit} (h : f ∉ filesOf hits) : matchesOf f hits = 0 := by
  unfold matchesOf
  rw [List.filter_eq_nil_iff.2]
  · rfl
  · intro g hg
    simp only [decide_eq_true_eq]
    rintro rfl
    exact h (mem_filesOf.2 ⟨g, hg, rfl⟩)

theorem matchesOf_pos {h : Hit} {hits : List Hit} (hm : h ∈ hits) (hc : 0 < h.matchCount) :
    0 < matchesOf h.filename hits := by
  unfold matchesOf
  refine lt_of_lt_of_le hc (List.single_le_sum (by simp) _ ?_)
  exact List.mem_map_of_mem (List.mem_filter.2 ⟨hm, by simp⟩)

theorem matchesOf_perm {a b : List Hit} (h : a.Perm b) (f : String) : matchesOf f a = matchesOf f b :=
  ((h.filter _).map _).sum_eq

theorem matchesOf_filter_add (f : String) (p : Hit → Bool) (hits : List Hit) :
    matchesOf f (hits.filter p) + matchesOf f (hits.filter fun h => !p h) = matchesOf f hits := by
  rw [← matchesOf_append]
  exact matchesOf_perm (List.filter_append_perm p hits) f

theorem filesOf_flatMap {α : Type} (g : α → List Hit) (xs : List α) :
    filesOf (xs.flatMap g) = xs.flatMap fun x => filesOf (g x) := by
  simp [filesOf, List.map_flatMap]

theorem matchesOf_flatMap {α : Type} (f : String) (g : α → List Hit) :
    ∀ xs : List α, matchesOf f (xs.flatMap g) = (xs.map fun x => matchesOf f (g x)).sum
  | [] => rfl
  | x :: xs => by rw [List.flatMap_cons, matchesOf_append, matchesOf_flatMap f g xs]; rfl

/-- Hits selected by filename. -/
theorem filesOf_filter (p : String → Bool) (hits : List Hit) :
    filesOf (hits.filter fun h => p h.filename) = (filesOf hits).filter p := by
  unfold filesOf
  rw [List.filter_map]
  rfl

theorem matchesOf_filter (p : String → Bool) (f : String) (hits : List Hit) :
    matchesOf f (hits.filter fun h => p h.filename) = if p f then matchesOf f hits else 0 := by
  induction hits with
  | nil => simp
  | cons h rest ih =>
    by_cases hf : h.filename = f
    · subst hf
      cases hp : p h.filename <;> simp [hp, ih]
    · cases hp : p h.filename <;> simp [hp, ih, hf]

/-- Where filenames do not repeat, hits are selected with all that is counted for a filename, or none of it. -/
theorem matchesOf_filter_of_nodup (f : String) (p : Hit → Bool) :
    ∀ {hits : List Hit}, (filesOf hits).Nodup →
      matchesOf f (hits.filter p) = 0 ∨ matchesOf f (hits.filter p) = matchesOf f hits
  | [], _ => .inl rfl
  | h :: rest, hn => by
    rw [filesOf_cons, List.nodup_cons] at hn
    by_cases hf : h.filename = f
    · have hrest : matchesOf f rest = 0 := matchesOf_eq_zero (hf ▸ hn.1)
      have hfilter : matchesOf f (rest.filter p) = 0 := by
        have := matchesOf_filter_add f p rest
        omega
      cases hp : p h <;> simp [hp, hf, hrest, hfilter]
    · have ih := matchesOf_filter_of_nodup f p hn.2
      cases hp : p h <;> simpa [hp, hf] using ih

/-! ## Merging into a list -/

/-- Merges a hit into a list: the first hit of its filename absorbs it, or it comes last. -/
def mergeInto (h : Hit) : List Hit → List Hit
  | [] => [h]
  | g :: rest => if g.filename = h.filename then g.absorb h :: rest else g :: mergeInto h rest

/-- Hits grouped by filename, in the order in which the filenames first came. -/
def group (hits : List Hit) : List Hit := hits.foldl (fun l h => mergeInto h l) []

/-- Merges hits one by one into a list. -/
def mergeAll (hits l : List Hit) : List Hit := hits.foldl (fun l h => mergeInto h l) l

theorem mergeAll_cons (h : Hit) (hits l : List Hit) : mergeAll (h :: hits) l = mergeAll hits (mergeInto h l) := rfl

theorem mergeAll_append (a b l : List Hit) : mergeAll (a ++ b) l = mergeAll b (mergeAll a l) := List.foldl_append ..

@[simp] theorem absorb_filename (g h : Hit) : (g.absorb h).filename = g.filename := rfl

@[simp] theorem absorb_matchCount (g h : Hit) : (g.absorb h).matchCount = g.matchCount + h.matchCount := rfl

theorem mergeInto_cons_of_eq {k h : Hit} (same : k.filename = h.filename) (rest : List Hit) :
    mergeInto h (k :: rest) = k.absorb h :: rest :=
  if_pos same

theorem mergeInto_cons_of_ne {k h : Hit} (other : k.filename ≠ h.filename) (rest : List Hit) :
    mergeInto h (k :: rest) = k :: mergeInto h rest :=
  if_neg other

theorem mergeInto_of_notMem {h : Hit} : ∀ {l : List Hit}, h.filename ∉ filesOf l → mergeInto h l = l ++ [h]
  | [], _ => rfl
  | g :: rest, hn => by
    simp only [filesOf_cons, List.mem_cons, not_or] at hn
    rw [mergeInto, if_neg (Ne.symm hn.1), mergeInto_of_notMem hn.2]
    rfl

theorem mergeInto_eq_modify {h : Hit} :
    ∀ {l : List Hit} {i : Nat}, (filesOf l)[i]? = some h.filename →
      (∀ j < i, (filesOf l)[j]? ≠ some h.filename) → mergeInto h l = l.modify i (·.absorb h)
  | [], i, hi, _ => by simp at hi
  | g :: rest, 0, hi, _ => by
    have : g.filename = h.filename := by simpa using hi
    rw [mergeInto, if_pos this]
    rfl
  | g :: rest, i + 1, hi, hj => by
    have hg : g.filename ≠ h.filename := by simpa using hj 0 (by omega)
    rw [mergeInto, if_neg hg, mergeInto_eq_modify (i := i) (by simpa using hi)]
    · rfl
    · intro j hlt
      simpa using hj (j + 1) (by omega)

theorem filesOf_mergeInto (h : Hit) (l : List Hit) :
    filesOf (mergeInto h l) = if h.filename ∈ filesOf l then filesOf l else filesOf l ++ [h.filename] := by
  induction l with
  | nil => rfl
  | cons g rest ih =>
    rw [mergeInto]
    by_cases hg : g.filename = h.filename
    · rw [if_pos hg, if_pos (by simp [hg])]
      rfl
    · rw [if_neg hg, filesOf_cons, ih]
      by_cases hr : h.filename ∈ filesOf rest
      · simp [hr]
      · simp [hr, Ne.symm hg]

theorem mem_filesOf_mergeInto {f : String} {h : Hit} {l : List Hit} :
    f ∈ filesOf (mergeInto h l) ↔ f ∈ filesOf l ∨ f = h.filename := by
  rw [filesOf_mergeInto]
  split
  · rename_i there
    refine ⟨.inl, ?_⟩
    rintro (old | rfl)
    · exact old
    · exact there
  · rw [List.mem_append, List.mem_singleton]

theorem matchesOf_mergeInto (f : String) (h : Hit) (l : List Hit) :
    matchesOf f (mergeInto h l) = matchesOf f l + if h.filename = f then h.matchCount else 0 := by
  induction l with
  | nil => simp [mergeInto]
  | cons g rest ih =>
    rw [mergeInto]
    by_cases hg : g.filename = h.filename
    · rw [if_pos hg]
      by_cases hf : h.filename = f <;> simp [hg, hf]
      omega
    · rw [if_neg hg, matchesOf_cons, ih, matchesOf_cons, Nat.add_assoc]

/-- Grouping commutes with leaving out filenames. -/
theorem filter_mergeInto (p : String → Bool) (h : Hit) (l : List Hit) :
    (mergeInto h l).filter (fun g => p g.filename) =
      if p h.filename then mergeInto h (l.filter fun g => p g.filename) else l.filter fun g => p g.filename := by
  induction l with
  | nil => cases hp : p h.filename <;> simp [mergeInto, hp]
  | cons g rest ih =>
    rw [mergeInto]
    by_cases hg : g.filename = h.filename
    · rw [if_pos hg]
      cases hp : p h.filename <;> simp [hg, hp, mergeInto]
    · rw [if_neg hg, List.filter_cons, ih]
      cases hp : p h.filename <;> cases hq : p g.filename <;> simp [hq, mergeInto, hg]

/-! ## Grouping -/

@[simp] theorem group_nil : group [] = [] := rfl

theorem group_concat (hits : List Hit) (h : Hit) : group (hits ++ [h]) = mergeInto h (group hits) := by
  simp [group]

/-- Each filename comes once, where it first came. -/
theorem filesOf_group (hits : List Hit) : filesOf (group hits) = (filesOf hits).eraseDups := by
  induction hits using List.reverseRecOn with
  | nil => rfl
  | append_singleton hits h ih =>
    rw [group_concat, filesOf_mergeInto, ih, filesOf_append, List.eraseDups_append]
    by_cases hm : h.filename ∈ filesOf hits
    · simp [hm, List.mem_eraseDups, List.removeAll]
    · simp [hm, List.mem_eraseDups, List.removeAll, List.eraseDups_cons]

/-- For each filename the group counts what all its hits count. -/
theorem matchesOf_group (f : String) (hits : List Hit) : matchesOf f (group hits) = matchesOf f hits := by
  induction hits using List.reverseRecOn with
  | nil => rfl
  | append_singleton hits h ih => rw [group_concat, matchesOf_mergeInto, ih]; simp

theorem filter_group (p : String → Bool) (hits : List Hit) :
    (group hits).filter (fun h => p h.filename) = group (hits.filter fun h => p h.filename) := by
  induction hits using List.reverseRecOn with
  | nil => rfl
  | append_singleton hits h ih =>
    rw [group_concat, filter_mergeInto, ih, List.filter_append]
    cases hp : p h.filename <;> simp [hp, group_concat]

/-- What merging hits keeps of each of them holds of each group. -/
theorem forall_group {P : Hit → Prop} (absorb : ∀ g h, P g → P h → P (g.absorb h)) {hits : List Hit}
    (h : ∀ g ∈ hits, P g) : ∀ g ∈ group hits, P g := by
  have step : ∀ (k : Hit) (l : List Hit), P k → (∀ g ∈ l, P g) → ∀ g ∈ mergeInto k l, P g := by
    intro k l hk hl
    induction l with
    | nil => simpa [mergeInto] using hk
    | cons a rest ih =>
      simp only [List.forall_mem_cons] at hl
      rw [mergeInto]
      split
      · exact List.forall_mem_cons.2 ⟨absorb a k hl.1 hk, hl.2⟩
      · exact List.forall_mem_cons.2 ⟨hl.1, ih hl.2⟩
  induction hits using List.reverseRecOn with
  | nil => simp
  | append_singleton hits k ih =>
    rw [group_concat]
    exact step k _ (h k (by simp)) (ih fun g hg => h g (by simp [hg]))

/-! ## Mergers -/

namespace Merger

/-- The slots of a merger are those of its hits' filenames. Two hits never share a filename. -/
structure Valid (m : Merger) : Prop where
  slots : ∀ (f : String) (i : Nat), m.slots[f]? = some i ↔ (filesOf m.toList)[i]? = some f

theorem valid_empty : Valid empty := ⟨fun f i => by simp [empty, toList]⟩

theorem Valid.notMem {m : Merger} (hv : m.Valid) {f : String} (h : m.slots[f]? = none) :
    f ∉ filesOf m.toList := by
  intro hf
  obtain ⟨i, hi⟩ := List.mem_iff_getElem?.1 hf
  rw [(hv.slots f i).2 hi] at h
  cases h

/-- Adding a hit merges it into the list of hits. -/
theorem toList_add {m : Merger} (hv : m.Valid) (h : Hit) : (m.add h).toList = mergeInto h m.toList := by
  unfold add
  split
  · rename_i slot hs
    have hi := (hv.slots h.filename slot).1 hs
    rw [mergeInto_eq_modify hi]
    · simp [toList]
    · intro j hj hf
      have := (hv.slots h.filename j).2 hf
      rw [hs] at this
      cases this
      exact absurd hj (Nat.lt_irrefl _)
  · rename_i hs
    rw [mergeInto_of_notMem (hv.notMem hs)]
    simp [toList]

theorem Valid.add {m : Merger} (hv : m.Valid) (h : Hit) : (m.add h).Valid := by
  constructor
  intro f i
  rw [toList_add hv, filesOf_mergeInto]
  unfold Merger.add
  split
  · -- the filename has its slot, and the filenames stay
    rename_i slot hs
    rw [if_pos (List.mem_of_getElem? ((hv.slots _ _).1 hs))]
    exact hv.slots f i
  · -- the filename is new and gets the slot behind all others
    rename_i hs
    have hsize : m.hits.size = (filesOf m.toList).length := by simp [filesOf, toList]
    rw [if_neg (hv.notMem hs)]
    simp only [Std.HashMap.getElem?_insert, beq_iff_eq, hsize]
    by_cases hf : h.filename = f
    · subst hf
      rw [if_pos rfl, Option.some.injEq, List.getElem?_append]
      constructor
      · rintro rfl
        simp
      · intro hi
        split at hi
        · exact absurd (List.mem_of_getElem? hi) (hv.notMem hs)
        · obtain ⟨hlt, -⟩ := List.getElem?_eq_some_iff.1 hi
          simp only [List.length_singleton] at hlt
          omega
    · rw [if_neg hf, hv.slots f i, List.getElem?_append]
      split
      · rfl
      · rename_i hge
        rw [List.getElem?_eq_none (by omega)]
        constructor
        · intro hi; cases hi
        · intro hi
          have := List.mem_of_getElem? hi
          simp only [List.mem_singleton] at this
          exact absurd this.symm hf

/-- Adding hits merges them one by one. -/
theorem toList_addAll : ∀ (hits : List Hit) {m : Merger}, m.Valid →
    (m.addAll hits).Valid ∧ (m.addAll hits).toList = mergeAll hits m.toList
  | [], _, hv => ⟨hv, rfl⟩
  | h :: rest, m, hv => by
    obtain ⟨hv', he⟩ := toList_addAll rest (hv.add h)
    refine ⟨hv', ?_⟩
    rw [mergeAll_cons, ← toList_add hv h]
    exact he

theorem valid_ofHits (hits : List Hit) : (ofHits hits).Valid := (toList_addAll hits valid_empty).1

/-- A merger groups hits by filename. -/
theorem toList_ofHits (hits : List Hit) : (ofHits hits).toList = group hits := (toList_addAll hits valid_empty).2

theorem addAll_addAll (m : Merger) (a b : List Hit) : (m.addAll a).addAll b = m.addAll (a ++ b) :=
  (List.foldl_append ..).symm

/-- Batches of hits are merged like one batch. -/
theorem foldl_addAll {α : Type} (g : α → List Hit) :
    ∀ (xs : List α) (m : Merger), xs.foldl (fun m x => m.addAll (g x)) m = m.addAll (xs.flatMap g)
  | [], _ => rfl
  | x :: xs, m => by rw [List.foldl_cons, foldl_addAll g xs, addAll_addAll]; rfl

end Merger

end Concordance
