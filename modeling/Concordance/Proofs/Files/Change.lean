/-
What tasks change, also those that fail. Places are compared, not paths: at a place there is the same in two
trees if there is the same node, and the same in it if it is a file. A task that works on the files at a few
paths leaves all other places as they are, and takes no directory away and makes none.
-/
import Concordance.Proofs.Files.Task

namespace Concordance

namespace FileTree

variable {t t' t'' : FileTree}

/-! ## The same at a place -/

/-- Is the same at a place in both trees? -/
structure SameAt (t t' : FileTree) (p : Place) : Prop where
  node : t'.node? p = t.node? p
  content : ∀ id, t.node? p = some (.file id) → t'.content id = t.content id

namespace SameAt

variable {p : Place}

theorem refl (t : FileTree) (p : Place) : t.SameAt t p := ⟨rfl, fun _ _ => rfl⟩

theorem trans (h : t.SameAt t' p) (h' : t'.SameAt t'' p) : t.SameAt t'' p where
  node := h'.node.trans h.node
  content id hn := (h'.content id (h.node.trans hn)).trans (h.content id hn)

end SameAt

/-- Do two trees have the same directories, and the same at all places but those of some paths? -/
structure DiffersAt (paths : List String) (t t' : FileTree) : Prop where
  directories : ∀ p, t'.node? p = some .directory ↔ t.node? p = some .directory
  elsewhere : ∀ p, (∀ path ∈ paths, t.place? path ≠ .ok p) → t.SameAt t' p

namespace DiffersAt

variable {paths : List String} {path : String}

theorem refl (paths : List String) (t : FileTree) : t.DiffersAt paths t := ⟨fun _ => .rfl, fun p _ => .refl t p⟩

/-- Paths lead to the same places. -/
theorem place?_iff (h : t.DiffersAt paths t') {p : Place} : t'.place? path = .ok p ↔ t.place? path = .ok p :=
  ⟨place?_of_keepsDirectories fun q => (h.directories q).1, place?_of_keepsDirectories fun q => (h.directories q).2⟩

theorem trans (h : t.DiffersAt paths t') (h' : t'.DiffersAt paths t'') : t.DiffersAt paths t'' where
  directories p := (h'.directories p).trans (h.directories p)
  elsewhere p hp := (h.elsewhere p hp).trans (h'.elsewhere p fun path hm he => hp path hm (h.place?_iff.1 he))

theorem mono {more : List String} (h : t.DiffersAt paths t') (hs : paths ⊆ more) : t.DiffersAt more t' where
  directories := h.directories
  elsewhere p hp := h.elsewhere p fun path hm => hp path (hs hm)

/-- A removal changes what is at its path. -/
theorem of_remove (hm : path ∈ paths) (h : t.remove path = .ok t') : t.DiffersAt paths t' := by
  obtain ⟨q, id, hq, hn, rfl⟩ := remove_eq_ok.1 h
  have file : t.node? q ≠ some .directory := by simp [hn]
  constructor
  · intro p
    by_cases he : p = q
    · subst he
      exact iff_of_false (node?_erase_self file) file
    · rw [node?_erase_of_ne he]
  · intro p hp
    have ne : p ≠ q := fun he => hp path hm (he ▸ hq)
    exact ⟨node?_erase_of_ne ne, fun _ _ => rfl⟩

end DiffersAt

/-! ## Files that have a place to themselves -/

/-- Has the file at a path, if one is there, no other place? -/
def Alone (t : FileTree) (path : String) : Prop :=
  ∀ p q id, t.place? path = .ok p → t.node? p = some (.file id) → t.node? q = some (.file id) → q = p

theorem node?_erase_self_ne_file (t : FileTree) (p : Place) (id : FileId) :
    (t.erase p).node? p ≠ some (.file id) := by
  unfold node?
  split
  · exact nofun
  · rw [lookup_erase_self]
    exact nofun

/-- A file that is left was there before. -/
theorem node?_of_node?_erase {p q : Place} {id : FileId} (h : (t.erase p).node? q = some (.file id)) :
    t.node? q = some (.file id) := by
  by_cases he : q = p
  · exact absurd (he ▸ h) (node?_erase_self_ne_file t p id)
  · rwa [node?_erase_of_ne he] at h

theorem Alone.remove {path other : String} (h : t.Alone path) (hr : t.remove other = .ok t') : t'.Alone path := by
  have differs : t.DiffersAt [other] t' := .of_remove List.mem_cons_self hr
  obtain ⟨r, _, -, -, rfl⟩ := remove_eq_ok.1 hr
  intro p q id hp hn hm
  exact h p q id (differs.place?_iff.1 hp) (node?_of_node?_erase hn) (node?_of_node?_erase hm)

/-- A file that is written has its place to itself if it had it before, or is new. -/
theorem Alone.write {path : String} {content : FileContent} (h : t.Alone path) (hv : t.Valid)
    (hw : t.write path content = .ok t') : t'.Alone path := by
  obtain ⟨r, hr, ⟨i, hn, rfl⟩ | ⟨hn, rfl⟩⟩ := write_eq_ok.1 hw
  · have kept : (t.setContent i content).KeepsDirectories t := fun _ hq => hq
    intro p q id hp
    exact h p q id (place?_of_keepsDirectories kept hp)
  · have free : t.node? r ≠ some .directory := by simp [hn]
    have kept : t.KeepsDirectories (t.putNew r content) := keepsDirectories_put free
    intro p q id hp hnp hnq
    have here : p = r := Except.ok.inj (hp.symm.trans (place?_of_keepsDirectories kept hr))
    subst here
    -- the file has a number that no other has
    have new : (t.putNew p content).node? p = some (.file t.contents.size) := node?_put_self free _
    have number : t.contents.size = id := by simpa using new.symm.trans hnp
    by_contra ne
    have old : t.node? q = some (.file id) := (node?_put_of_ne ne _).symm.trans hnq
    exact Nat.lt_irrefl id (number ▸ hv q id (mem_of_node? old))

/-- Writing changes what is at its path, if the file there has no other place. -/
theorem DiffersAt.of_write {paths : List String} {path : String} {content : FileContent} (hm : path ∈ paths)
    (hv : t.Valid) (ha : t.Alone path) (hw : t.write path content = .ok t') : t.DiffersAt paths t' := by
  obtain ⟨r, hr, ⟨i, hn, rfl⟩ | ⟨hn, rfl⟩⟩ := write_eq_ok.1 hw
  · refine ⟨fun _ => .rfl, fun p hp => ⟨rfl, fun id hid => ?_⟩⟩
    have ne : i ≠ id := by
      rintro rfl
      exact hp path hm (ha r p i hr hn hid ▸ hr)
    simp [FileTree.content, setContent, Array.getD_eq_getD_getElem?, Array.getElem?_setIfInBounds_ne ne]
  · have free : t.node? r ≠ some .directory := by simp [hn]
    constructor
    · intro p
      by_cases he : p = r
      · subst he
        have new : (t.putNew p content).node? p = some (.file t.contents.size) := node?_put_self free _
        simp [new, hn]
      · have same : (t.putNew r content).node? p = t.node? p := node?_put_of_ne he _
        rw [same]
    · intro p hp
      have ne : p ≠ r := fun he => hp path hm (he ▸ hr)
      refine ⟨node?_put_of_ne ne _, fun id hid => ?_⟩
      have bound : id < t.contents.size := hv p id (mem_of_node? hid)
      have old : id ≠ t.contents.size := Nat.ne_of_lt bound
      simp [FileTree.content, putNew, Array.getD_eq_getD_getElem?, Array.getElem?_push, old]

end FileTree

section

variable {d d' : Disk}

end

/-! ## Tasks -/

/-- Does a task keep a property of trees, however it ends? -/
def Keeps {α : Type} (I : FileTree → Prop) (task : ExceptT Error (StateM Disk) α) : Prop :=
  ∀ d, I d.tree → I (outcome task d).2.tree

/-- Does a task keep a property of trees if it fails? -/
def KeepsFailing {α : Type} (I : FileTree → Prop) (task : ExceptT Error (StateM Disk) α) : Prop :=
  ∀ d e d', I d.tree → outcome task d = (.error e, d') → I d'.tree

section

variable {α β : Type} {I : FileTree → Prop}

theorem Keeps.bind {x : ExceptT Error (StateM Disk) α} {f : α → ExceptT Error (StateM Disk) β} (hx : Keeps I x)
    (hf : ∀ a, Keeps I (f a)) : Keeps I (x >>= f) := by
  intro d hd
  have first := hx d hd
  rw [outcome_bind]
  rcases hr : outcome x d with ⟨e | a, d₁⟩ <;> rw [hr] at first
  · exact first
  · exact hf a d₁ first

/-- The first step of a task that fails has ended somehow, and then the second step has failed if it was taken. -/
theorem KeepsFailing.bind {x : ExceptT Error (StateM Disk) α} {f : α → ExceptT Error (StateM Disk) β}
    (hx : Keeps I x) (hf : ∀ a, KeepsFailing I (f a)) : KeepsFailing I (x >>= f) := by
  intro d e d' hd he
  have first := hx d hd
  rw [outcome_bind] at he
  rcases hr : outcome x d with ⟨e₁ | a, d₁⟩ <;> rw [hr] at first he
  · cases he
    exact first
  · exact hf a d₁ e d' first he

end

end Concordance
