/-
What an operation on a tree of files leaves alone. A path is found by passing directories only, and no
operation takes a directory away, so a path that was found is found again at the same place. Hence a file
reads as it was written, one that is renamed reads as before at its new path, and removing a file leaves
those at other places as they were.
-/
import Concordance.Files.Tree
import Mathlib.Data.List.Basic

namespace Concordance

namespace FileTree

variable {t t' : FileTree}

/-! ## Places -/

/-- Has every file that has a place a content? -/
def Valid (t : FileTree) : Prop := ∀ p id, (p, FileNode.file id) ∈ t.nodes → id < t.contents.size

theorem valid_empty : empty.Valid := fun _ _ h => nomatch h

/-- Are the directories of the first tree directories in the second? -/
def KeepsDirectories (t t' : FileTree) : Prop :=
  ∀ p, t.node? p = some .directory → t'.node? p = some .directory

theorem lookup_filter_of_ne {p q : Place} (h : q ≠ p) :
    ∀ nodes : List (Place × FileNode), (nodes.filter (·.1 != p)).lookup q = nodes.lookup q
  | [] => rfl
  | (r, n) :: rest => by
    rw [List.filter_cons]
    by_cases hr : r = p
    · subst hr
      have hq : (q == r) = false := by simpa using h
      simp [List.lookup_cons, hq, lookup_filter_of_ne h rest]
    · simp [hr, List.lookup_cons, lookup_filter_of_ne h rest]

theorem node?_erase_of_ne {p q : Place} (h : q ≠ p) : (t.erase p).node? q = t.node? q := by
  unfold node? erase
  rw [lookup_filter_of_ne h]

theorem node?_put_of_ne {p q : Place} (h : q ≠ p) (n : FileNode) : (t.put p n).node? q = t.node? q := by
  have hq : (q == p) = false := by simpa using h
  have lookup : (t.put p n).nodes.lookup q = t.nodes.lookup q := by
    simp only [put, List.lookup_cons, hq]
    exact lookup_filter_of_ne h t.nodes
  unfold node?
  rw [lookup]

theorem node?_put_self {p : Place} (h : t.node? p ≠ some .directory) (n : FileNode) :
    (t.put p n).node? p = some n := by
  unfold node? at h ⊢
  split
  · rename_i always
    exact absurd (if_pos always) h
  · simp [put]

theorem lookup_erase_self (t : FileTree) (p : Place) : (t.erase p).nodes.lookup p = none := by
  refine List.lookup_eq_none_iff.2 fun x hx => ?_
  have ne := (List.mem_filter.1 hx).2
  simp only [bne_iff_ne, ne_eq] at ne ⊢
  exact fun h => ne h.symm

theorem node?_erase_self {p : Place} (h : t.node? p ≠ some .directory) : (t.erase p).node? p ≠ some .directory := by
  unfold node? at h ⊢
  split
  · rename_i always
    exact absurd (if_pos always) h
  · rw [lookup_erase_self]
    exact nofun

theorem mem_of_node? {p : Place} {id : FileId} (h : t.node? p = some (.file id)) : (p, FileNode.file id) ∈ t.nodes := by
  unfold node? at h
  split at h
  · cases h
  · obtain ⟨before, after, hnodes, -⟩ := List.lookup_eq_some_iff.1 h
    rw [hnodes]
    exact List.mem_append_right _ List.mem_cons_self

theorem keepsDirectories_erase {p : Place} (h : t.node? p ≠ some .directory) : t.KeepsDirectories (t.erase p) := by
  intro q hq
  rw [node?_erase_of_ne]
  · exact hq
  · rintro rfl
    exact h hq

theorem keepsDirectories_put {p : Place} {n : FileNode} (h : t.node? p ≠ some .directory) :
    t.KeepsDirectories (t.put p n) := by
  intro q hq
  rw [node?_put_of_ne]
  · exact hq
  · rintro rfl
    exact h hq

/-! ## Paths -/

/-- Names that lead somewhere lead there as long as directories are kept. -/
theorem walk_of_keepsDirectories (hk : t.KeepsDirectories t') :
    ∀ {names : List String} {p q : Place}, t.walk p names = .ok q → t'.walk p names = .ok q
  | [], _, _, h => h
  | name :: rest, p, q, h => by
    unfold walk at h ⊢
    cases hn : t.node? p with
    | none => simp [hn] at h
    | some n =>
      cases n with
      | file id => simp [hn] at h
      | directory =>
        simp only [hn] at h
        simp only [hk p hn]
        split at h
        · rename_i here
          rw [if_pos here]
          exact walk_of_keepsDirectories hk h
        · rename_i away
          rw [if_neg away]
          split at h
          · rename_i up
            rw [if_pos up]
            exact walk_of_keepsDirectories hk h
          · rename_i down
            rw [if_neg down]
            split at h
            · cases h
            · rename_i short
              rw [if_neg short]
              exact walk_of_keepsDirectories hk h

theorem place?_of_keepsDirectories (hk : t.KeepsDirectories t') {path : String} {p : Place}
    (h : t.place? path = .ok p) : t'.place? path = .ok p := by
  unfold place? at h ⊢
  cases hc : checkPath path with
  | error e => simp [hc, bind, Except.bind] at h
  | ok u =>
    simp only [hc, bind, Except.bind] at h ⊢
    exact walk_of_keepsDirectories hk h

theorem file?_eq_ok {path : String} {id : FileId} :
    t.file? path = .ok id ↔ ∃ p, t.place? path = .ok p ∧ t.node? p = some (.file id) := by
  unfold file?
  cases hp : t.place? path with
  | error e => simp [bind, Except.bind]
  | ok p =>
    simp only [bind, Except.bind, Except.ok.injEq, exists_eq_left']
    cases t.node? p with
    | none => simp
    | some n => cases n <;> simp

theorem read_eq_ok {path : String} {content : FileContent} :
    t.read path = .ok content ↔
      ∃ p id, t.place? path = .ok p ∧ t.node? p = some (.file id) ∧ t.content id = content := by
  unfold read
  cases hf : t.file? path with
  | error e =>
    simp only [bind, Except.bind, reduceCtorEq, false_iff]
    rintro ⟨p, id, hp, hn, -⟩
    rw [file?_eq_ok.2 ⟨p, hp, hn⟩] at hf
    cases hf
  | ok id =>
    simp only [bind, Except.bind, pure, Except.pure, Except.ok.injEq]
    obtain ⟨p, hp, hn⟩ := file?_eq_ok.1 hf
    constructor
    · exact fun h => ⟨p, id, hp, hn, h⟩
    · rintro ⟨p', id', hp', hn', h⟩
      rw [hp] at hp'
      cases hp'
      rw [hn] at hn'
      cases hn'
      exact h

theorem write_eq_ok {path : String} {content : FileContent} :
    t.write path content = .ok t' ↔ ∃ p, t.place? path = .ok p ∧
      ((∃ id, t.node? p = some (.file id) ∧ t' = t.setContent id content) ∨
        (t.node? p = none ∧ t' = t.putNew p content)) := by
  unfold write
  cases hp : t.place? path with
  | error e => simp [bind, Except.bind]
  | ok p =>
    simp only [bind, Except.bind, Except.ok.injEq, exists_eq_left']
    cases t.node? p with
    | none => simp [eq_comm]
    | some n => cases n <;> simp [eq_comm]

theorem remove_eq_ok {path : String} :
    t.remove path = .ok t' ↔ ∃ p id, t.place? path = .ok p ∧ t.node? p = some (.file id) ∧ t' = t.erase p := by
  unfold remove
  cases hf : t.file? path with
  | error e =>
    simp only [bind, Except.bind, reduceCtorEq, false_iff]
    rintro ⟨p, id, hp, hn, -⟩
    rw [file?_eq_ok.2 ⟨p, hp, hn⟩] at hf
    cases hf
  | ok id =>
    obtain ⟨p, hp, hn⟩ := file?_eq_ok.1 hf
    simp only [hp, bind, Except.bind, pure, Except.pure, Except.ok.injEq]
    constructor
    · exact fun h => ⟨p, id, rfl, hn, h.symm⟩
    · rintro ⟨p', id', rfl, -, h⟩
      exact h.symm

theorem rename_eq_ok {source target : String} :
    t.rename source target = .ok t' ↔ ∃ p id q, t.place? source = .ok p ∧ t.node? p = some (.file id) ∧
      t.place? target = .ok q ∧ (t.node? q = some (.file id) ∧ t' = t ∨
        t.node? q ≠ some .directory ∧ t.node? q ≠ some (.file id) ∧ t' = (t.erase p).put q (.file id)) := by
  unfold rename
  cases hf : t.file? source with
  | error e =>
    simp only [bind, Except.bind, reduceCtorEq, false_iff]
    rintro ⟨p, id, q, hp, hn, -⟩
    rw [file?_eq_ok.2 ⟨p, hp, hn⟩] at hf
    cases hf
  | ok id =>
    obtain ⟨p, hp, hn⟩ := file?_eq_ok.1 hf
    cases hq : t.place? target with
    | error e => simp [bind, Except.bind]
    | ok q =>
      simp only [hp, bind, Except.bind, pure, Except.pure, Except.ok.injEq]
      constructor
      · intro h
        refine ⟨p, id, q, rfl, hn, rfl, ?_⟩
        split at h
        · cases h
        · rename_i hd
          split at h
          · rename_i same
            exact .inl ⟨same, (Except.ok.inj h).symm⟩
          · rename_i other
            exact .inr ⟨hd, other, (Except.ok.inj h).symm⟩
      · rintro ⟨p', id', q', rfl, hn', rfl, h⟩
        rw [hn] at hn'
        cases hn'
        rcases h with ⟨same, rfl⟩ | ⟨hd, other, rfl⟩
        · simp [same]
        · rw [if_neg hd, if_neg other]

/-! ## What is kept -/

theorem Valid.erase (h : t.Valid) (p : Place) : (t.erase p).Valid :=
  fun q id hq => h q id (List.mem_of_mem_filter hq)

theorem Valid.put (h : t.Valid) (p : Place) {n : FileNode} (hn : ∀ id, n = .file id → id < t.contents.size) :
    (t.put p n).Valid := by
  intro q id hq
  rcases List.mem_cons.1 hq with hq | hq
  · cases hq
    exact hn id rfl
  · exact h.erase p q id hq

theorem Valid.write (h : t.Valid) {path : String} {content : FileContent} (hw : t.write path content = .ok t') :
    t'.Valid := by
  obtain ⟨p, -, ⟨id, -, rfl⟩ | ⟨-, rfl⟩⟩ := write_eq_ok.1 hw
  · intro q i hq
    simpa [setContent] using h q i hq
  · intro q i hq
    have size : (t.putNew p content).contents.size = t.contents.size + 1 := by simp [putNew]
    rw [size]
    rcases List.mem_cons.1 hq with hq | hq
    · cases hq
      exact Nat.lt_succ_self _
    · exact Nat.lt_succ_of_lt (h.erase p q i hq)

theorem Valid.remove (h : t.Valid) {path : String} (hr : t.remove path = .ok t') : t'.Valid := by
  obtain ⟨p, id, -, -, rfl⟩ := remove_eq_ok.1 hr
  exact h.erase p

theorem Valid.rename (h : t.Valid) {source target : String} (hr : t.rename source target = .ok t') : t'.Valid := by
  obtain ⟨p, id, q, -, hn, -, ⟨-, rfl⟩ | ⟨-, -, rfl⟩⟩ := rename_eq_ok.1 hr
  · exact h
  · refine (h.erase p).put q fun i hi => ?_
    cases hi
    exact h p id (mem_of_node? hn)

theorem Valid.makeDirectory (h : t.Valid) {path : String} (hm : t.makeDirectory path = .ok t') : t'.Valid := by
  unfold FileTree.makeDirectory at hm
  cases hc : checkPath path with
  | error e => simp [hc, bind, Except.bind] at hm
  | ok u =>
    simp only [hc, bind, Except.bind] at hm
    split at hm
    · cases hm
    · -- whatever the path is spelled like, a directory is put or the tree stays
      repeat' split at hm
      all_goals first
        | exact (Except.ok.inj hm) ▸ h.put _ fun id hid => nomatch hid
        | cases hm

theorem Valid.makeLineage : ∀ {t : FileTree} (_ : t.Valid) (paths : List String), (t.makeLineage paths).2.Valid
  | _, h, [] => h
  | t, h, path :: above => by
    unfold FileTree.makeLineage
    dsimp only
    split
    · rename_i t₁ hm
      exact h.makeDirectory hm
    · have ih := h.makeLineage above
      split
      · rename_i e t₁ hl
        rw [hl] at ih
        exact ih
      · rename_i t₁ hl
        rw [hl] at ih
        split
        · rename_i t₂ hm
          exact Valid.makeDirectory ih hm
        · split <;> exact ih
    · split <;> exact h

theorem Valid.createDirectories (h : t.Valid) (path : String) : (t.createDirectories path).2.Valid := by
  unfold FileTree.createDirectories
  split
  · exact h
  · exact h.makeLineage _

/-- A file reads as it was written. -/
theorem read_write (h : t.Valid) {path : String} {content : FileContent} (hw : t.write path content = .ok t') :
    t'.read path = .ok content := by
  obtain ⟨p, hp, ⟨id, hn, rfl⟩ | ⟨hn, rfl⟩⟩ := write_eq_ok.1 hw
  · have inBounds : id < t.contents.size := h p id (mem_of_node? hn)
    have kept : t.KeepsDirectories (t.setContent id content) := fun _ hq => hq
    refine read_eq_ok.2 ⟨p, id, place?_of_keepsDirectories kept hp, hn, ?_⟩
    simp [FileTree.content, setContent, inBounds]
  · -- the new file gets the next content
    have none : t.node? p ≠ some .directory := by simp [hn]
    have kept : t.KeepsDirectories (t.putNew p content) := keepsDirectories_put none
    refine read_eq_ok.2 ⟨p, t.contents.size, place?_of_keepsDirectories kept hp, node?_put_self none _, ?_⟩
    simp [FileTree.content, putNew]

/-- A file that is renamed reads as before. -/
theorem read_rename {source target : String} {content : FileContent} (hs : t.read source = .ok content)
    (hr : t.rename source target = .ok t') : t'.read target = .ok content := by
  obtain ⟨p, id, q, hp, hn, hq, moved⟩ := rename_eq_ok.1 hr
  obtain ⟨p', id', hp', hn', hc⟩ := read_eq_ok.1 hs
  rw [hp] at hp'
  cases hp'
  rw [hn] at hn'
  cases hn'
  rcases moved with ⟨same, rfl⟩ | ⟨hd, other, rfl⟩
  · exact read_eq_ok.2 ⟨q, id, hq, same, hc⟩
  · have ne : q ≠ p := fun he => other (he ▸ hn)
    have file : t.node? p ≠ some .directory := by simp [hn]
    have free : (t.erase p).node? q ≠ some .directory := by
      rw [node?_erase_of_ne ne]
      exact hd
    have kept : t.KeepsDirectories ((t.erase p).put q (.file id)) :=
      fun r hr => keepsDirectories_put free r (keepsDirectories_erase file r hr)
    exact read_eq_ok.2 ⟨q, id, place?_of_keepsDirectories kept hq, node?_put_self free _, hc⟩

/-! ## Paths that are apart -/

end FileTree

/-- Are two paths at different places in every tree? -/
def Apart (path other : String) : Prop :=
  ∀ (t : FileTree) (p : Place), t.place? path = .ok p → t.place? other ≠ .ok p

namespace FileTree

variable {t t' : FileTree}

/-- Removing a file leaves the files at other places. -/
theorem read_remove {path other : String} (ha : Apart path other) {content : FileContent}
    (ho : t.read other = .ok content) (hr : t.remove path = .ok t') : t'.read other = .ok content := by
  obtain ⟨p, id, hp, hn, rfl⟩ := remove_eq_ok.1 hr
  obtain ⟨q, i, hq, hm, hc⟩ := read_eq_ok.1 ho
  have ne : q ≠ p := by
    rintro rfl
    exact ha t q hp hq
  have kept : t.KeepsDirectories (t.erase p) := keepsDirectories_erase (by simp [hn])
  refine read_eq_ok.2 ⟨q, i, place?_of_keepsDirectories kept hq, ?_, hc⟩
  rw [node?_erase_of_ne ne]
  exact hm

end FileTree

end Concordance
