/-
Merging in batches. A merger that takes hits batch by batch holds what it would hold if they had come one by one, and
its hits are the same if a batch is merged by itself before. Each of them stands for all hits of its filename: it is
for the document of the first, with the matches of all in their order. So the order in which hits come decides in
which order filenames and matches are listed and which document is named, and nothing else.
-/
import Concordance.Proofs.Merge.Group
import Mathlib.Data.List.Forall2

namespace Concordance

/-! ## The hits of one filename -/

/-- The contexts that hits list for a filename. -/
def contextsOf (f : String) (hits : List Hit) : List Context := (hits.filter (·.filename = f)).flatMap (·.contexts)

theorem contextsOf_perm {a b : List Hit} (h : a.Perm b) (f : String) : (contextsOf f a).Perm (contextsOf f b) :=
  (h.filter _).flatMap_right _

/-- Hits as one hit: for the document of the first, with the matches of all. -/
def Hit.joined (first : Hit) (rest : List Hit) : Hit :=
  { first with
    matchCount := totalOf (·.matchCount) (first :: rest)
    contexts := (first :: rest).flatMap (·.contexts) }

theorem absorb_joined (g h : Hit) (rest : List Hit) : (g.absorb h).joined rest = g.joined (h :: rest) := by
  simp only [Hit.joined, Hit.absorb, totalOf, List.flatMap_cons, Nat.add_assoc, List.append_assoc]

theorem mergeAll_singleton {g : Hit} {rest : List Hit} (same : ∀ h ∈ rest, h.filename = g.filename) :
    mergeAll rest [g] = [g.joined rest] := by
  induction rest generalizing g with
  | nil => simp [mergeAll, Hit.joined, totalOf]
  | cons h rest ih =>
    have first : g.filename = h.filename := (same h List.mem_cons_self).symm
    rw [mergeAll_cons, mergeInto_cons_of_eq first, ih, absorb_joined]
    exact fun k hk => same k (List.mem_cons_of_mem h hk)

/-- Hits for one filename are grouped into one hit. -/
theorem group_of_same {f : String} {first : Hit} {rest : List Hit} (named : ∀ h ∈ first :: rest, h.filename = f) :
    group (first :: rest) = [first.joined rest] := by
  have same : ∀ h ∈ rest, h.filename = first.filename := fun h hh =>
    (named h (List.mem_cons_of_mem first hh)).trans (named first List.mem_cons_self).symm
  exact mergeAll_singleton same

theorem forall_mem_filter_filename (f : String) (hits : List Hit) :
    ∀ h ∈ hits.filter (·.filename = f), h.filename = f :=
  fun _ hh => of_decide_eq_true (List.mem_filter.1 hh).2

/-- Each hit of a group stands for all hits of its filename. -/
theorem exists_joined_of_mem_group {h : Hit} {hits : List Hit} (hh : h ∈ group hits) :
    ∃ first rest, hits.filter (·.filename = h.filename) = first :: rest ∧ h = first.joined rest := by
  have named := forall_mem_filter_filename h.filename hits
  have alone : h ∈ group (hits.filter (·.filename = h.filename)) := by
    rw [← filter_group (· = h.filename)]
    exact List.mem_filter.2 ⟨hh, decide_eq_true rfl⟩
  cases ofFile : hits.filter (·.filename = h.filename) with
  | nil =>
    rw [ofFile] at alone
    cases alone
  | cons first rest =>
    rw [ofFile] at alone named
    rw [group_of_same named, List.mem_singleton] at alone
    exact ⟨first, rest, rfl, alone⟩

/-- A group lists for each filename what all its hits list, in their order. -/
theorem contextsOf_group (f : String) (hits : List Hit) : contextsOf f (group hits) = contextsOf f hits := by
  have named := forall_mem_filter_filename f hits
  unfold contextsOf
  rw [filter_group (· = f)]
  cases ofFile : hits.filter (·.filename = f) with
  | nil => rfl
  | cons first rest =>
    rw [ofFile] at named
    rw [group_of_same named, List.flatMap_singleton]
    rfl

/-- Are merged hits those of a list by filename, each filename once, in the order in which they first came? -/
structure GroupsByFile (hits merged : List Hit) : Prop where
  filenames : filesOf merged = (filesOf hits).eraseDups
  joined : ∀ h ∈ merged, ∃ first rest, hits.filter (·.filename = h.filename) = first :: rest ∧ h = first.joined rest

theorem groupsByFile_group (hits : List Hit) : GroupsByFile hits (group hits) :=
  ⟨filesOf_group hits, fun _ => exists_joined_of_mem_group⟩

/-! ## Merging what is merged -/

theorem absorb_absorb (k g h : Hit) : k.absorb (g.absorb h) = (k.absorb g).absorb h := by
  simp only [Hit.absorb, Nat.add_assoc, List.append_assoc]

/-- A hit that has absorbed another merges as the two do one after the other. -/
theorem mergeInto_absorb {g h : Hit} (same : g.filename = h.filename) :
    ∀ l : List Hit, mergeInto (g.absorb h) l = mergeInto h (mergeInto g l)
  | [] => (mergeInto_cons_of_eq same []).symm
  | k :: rest => by
    by_cases here : k.filename = g.filename
    · have there : (k.absorb g).filename = h.filename := here.trans same
      rw [mergeInto_cons_of_eq here, mergeInto_cons_of_eq there, mergeInto_cons_of_eq (h := g.absorb h) here,
        absorb_absorb]
    · have behind : k.filename ≠ h.filename := fun eq => here (eq.trans same.symm)
      rw [mergeInto_cons_of_ne here, mergeInto_cons_of_ne behind, mergeInto_cons_of_ne (h := g.absorb h) here,
        mergeInto_absorb same rest]

/-- A hit for a filename that is there may be merged before or after a hit for another filename. -/
theorem mergeInto_comm {g h : Hit} (other : g.filename ≠ h.filename) :
    ∀ {l : List Hit}, h.filename ∈ filesOf l → mergeInto h (mergeInto g l) = mergeInto g (mergeInto h l)
  | k :: rest, there => by
    by_cases here : k.filename = h.filename
    · have behind : k.filename ≠ g.filename := fun eq => other (eq.symm.trans here)
      rw [mergeInto_cons_of_eq here, mergeInto_cons_of_ne behind, mergeInto_cons_of_eq here,
        mergeInto_cons_of_ne (k := k.absorb h) behind]
    · have there : h.filename ∈ filesOf rest := by
        rw [filesOf_cons, List.mem_cons] at there
        exact there.resolve_left (Ne.symm here)
      rw [mergeInto_cons_of_ne here]
      by_cases absorbed : k.filename = g.filename
      · rw [mergeInto_cons_of_eq absorbed, mergeInto_cons_of_eq absorbed, mergeInto_cons_of_ne (k := k.absorb g) here]
      · rw [mergeInto_cons_of_ne absorbed, mergeInto_cons_of_ne absorbed, mergeInto_cons_of_ne here,
          mergeInto_comm other there]

theorem mergeAll_comm {h : Hit} {others : List Hit} (other : h.filename ∉ filesOf others) {l : List Hit}
    (there : h.filename ∈ filesOf l) : mergeAll others (mergeInto h l) = mergeInto h (mergeAll others l) := by
  induction others generalizing l with
  | nil => rfl
  | cons k others ih =>
    rw [filesOf_cons, List.mem_cons, not_or] at other
    have there' : h.filename ∈ filesOf (mergeInto k l) := mem_filesOf_mergeInto.2 (.inl there)
    rw [mergeAll_cons, mergeAll_cons, ← mergeInto_comm (Ne.symm other.1) there, ih other.2 there']

/-- To merge a hit into merged hits before they are merged is to merge it after them. -/
theorem mergeAll_mergeInto {h : Hit} : ∀ {merged l : List Hit}, (filesOf merged).Nodup →
    mergeAll (mergeInto h merged) l = mergeInto h (mergeAll merged l)
  | [], _, _ => rfl
  | g :: rest, l, single => by
    rw [filesOf_cons, List.nodup_cons] at single
    by_cases same : g.filename = h.filename
    · have there : h.filename ∈ filesOf (mergeInto g l) := mem_filesOf_mergeInto.2 (.inr same.symm)
      rw [mergeInto_cons_of_eq same, mergeAll_cons, mergeAll_cons, mergeInto_absorb same,
        mergeAll_comm (same ▸ single.1) there]
    · rw [mergeInto_cons_of_ne same, mergeAll_cons, mergeAll_cons, mergeAll_mergeInto single.2]

/-- Hits may be grouped before they are merged. -/
theorem mergeAll_group (hits l : List Hit) : mergeAll (group hits) l = mergeAll hits l := by
  induction hits using List.reverseRecOn with
  | nil => rfl
  | append_singleton hits h ih =>
    have single : (filesOf (group hits)).Nodup := filesOf_group hits ▸ nodup_eraseDups _
    rw [group_concat, mergeAll_mergeInto single, ih, mergeAll_append]
    rfl

/-! ## Batches -/

namespace Merger

/-- The merger that has taken batches of hits, one after the other. -/
def ofBatches : List (List Hit) → Merger
  | [] => empty
  | first :: later => later.foldl addAll (ofHits first)

/-- Batches are merged as their hits are one by one. -/
theorem ofBatches_eq (batches : List (List Hit)) : ofBatches batches = ofHits batches.flatten := by
  cases batches with
  | nil => rfl
  | cons first later =>
    have later_eq : later.foldl addAll (ofHits first) = (ofHits first).addAll (later.flatMap id) :=
      foldl_addAll id later (ofHits first)
    rw [ofBatches, later_eq, ofHits, addAll_addAll, List.flatMap_id, List.flatten_cons, ofHits]

theorem toList_ofBatches (batches : List (List Hit)) : (ofBatches batches).toList = group batches.flatten := by
  rw [ofBatches_eq, toList_ofHits]

/-- Are these the same batches, but for some that were merged by themselves before? -/
def MergedBefore (batches others : List (List Hit)) : Prop :=
  List.Forall₂ (fun batch other => other = batch ∨ other = (ofHits batch).toList) batches others

theorem MergedBefore.mergeAll_eq {batches others : List (List Hit)} (h : MergedBefore batches others) (l : List Hit) :
    mergeAll others.flatten l = mergeAll batches.flatten l := by
  induction h generalizing l with
  | nil => rfl
  | @cons batch other batches others first _ ih =>
    have once : mergeAll other l = mergeAll batch l := by
      rcases first with rfl | rfl
      · rfl
      · rw [toList_ofHits, mergeAll_group]
    rw [List.flatten_cons, List.flatten_cons, mergeAll_append, mergeAll_append, once, ih]

/--
A merger groups the hits of its batches by filename, and at all times, also in the middle of a batch, it knows the
slot of each filename. It does not depend on how the hits are cut into batches, and its hits do not depend on whether
batches were merged by themselves before. If the hits come in another order, the filenames, what is counted for each
and its contexts are the same, in another order.
-/
theorem ofBatches_groups (batches : List (List Hit)) :
    let merged := (ofBatches batches).toList
    GroupsByFile batches.flatten merged ∧
      (∀ part, ((ofBatches batches).addAll part).Valid) ∧
      (∀ others, others.flatten = batches.flatten → ofBatches others = ofBatches batches) ∧
      (∀ others, MergedBefore batches others → (ofBatches others).toList = merged) ∧
      ∀ others, others.flatten.Perm batches.flatten → ∀ f,
        (f ∈ filesOf (ofBatches others).toList ↔ f ∈ filesOf merged) ∧
          matchesOf f (ofBatches others).toList = matchesOf f merged ∧
          (contextsOf f (ofBatches others).toList).Perm (contextsOf f merged) := by
  intro merged
  have grouped : merged = group batches.flatten := toList_ofBatches batches
  refine ⟨?_, fun part => ?_, fun others same => ?_, fun others before => ?_, fun others perm f => ?_⟩
  · rw [grouped]
    exact groupsByFile_group _
  · have valid : (ofBatches batches).Valid := by
      rw [ofBatches_eq]
      exact valid_ofHits _
    exact (toList_addAll part valid).1
  · rw [ofBatches_eq, ofBatches_eq, same]
  · rw [grouped, toList_ofBatches]
    exact before.mergeAll_eq []
  · rw [grouped, toList_ofBatches, filesOf_group, filesOf_group, List.mem_eraseDups, List.mem_eraseDups,
      matchesOf_group, matchesOf_group, contextsOf_group, contextsOf_group]
    exact ⟨(perm.map _).mem_iff, matchesOf_perm perm f, contextsOf_perm perm f⟩

/-- Three hits in two batches, the last two for one filename in different datasets. -/
def harborBatches : List (List Hit) :=
  [[⟨1, "a.pdf", "DataSet 1/a.pdf", 2, 1, [⟨0, "log", "log", some 1⟩]⟩],
    [⟨1, "b.pdf", "DataSet 1/b.pdf", 1, 2, [⟨0, "log", "log", none⟩, ⟨9, "log", "log", none⟩]⟩,
      ⟨2, "b.pdf", "DataSet 2/b.pdf", 5, 1, [⟨4, "log", "log", some 3⟩]⟩]]

/-- The hits one by one, with the second batch merged by itself before, and in the opposite order. -/
theorem ofBatches_harbor :
    let alone := harborBatches.flatten.map fun h => [h]
    let before := harborBatches.map fun batch => (ofHits batch).toList
    let back := [harborBatches.flatten.reverse]
    ofBatches alone = ofBatches harborBatches ∧
      (ofBatches before).toList = (ofBatches harborBatches).toList ∧
      matchesOf "b.pdf" (ofBatches harborBatches).toList = 3 ∧ matchesOf "b.pdf" (ofBatches back).toList = 3 := by
  intro alone before back
  obtain ⟨-, -, division, regrouping, order⟩ := ofBatches_groups harborBatches
  have single : alone.flatten = harborBatches.flatten := rfl
  have merged : MergedBefore harborBatches before := .cons (.inr rfl) (.cons (.inr rfl) .nil)
  have reversed : back.flatten.Perm harborBatches.flatten := by
    rw [List.flatten_singleton]
    exact List.reverse_perm _
  have three : matchesOf "b.pdf" (ofBatches harborBatches).toList = 3 := by
    rw [toList_ofBatches]
    decide +kernel
  exact ⟨division alone single, regrouping before merged, three, (order back reversed "b.pdf").2.1.trans three⟩

end Merger

end Concordance
