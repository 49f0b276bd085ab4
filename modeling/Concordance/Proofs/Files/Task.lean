/-
Tasks on a disk that end well. Such a task has done each of its steps in turn, and none of its operations has
failed, so each has changed the tree as operations do.
-/
import Concordance.Index.Access
import Concordance.Proofs.Files.Frame

namespace Concordance

/-- The result of a task that starts on a disk, and the disk that it leaves. -/
def outcome {α : Type} (task : ExceptT Error (StateM Disk) α) (d : Disk) : Except Error α × Disk := task.run d

/-- Does a task that starts on the disk `d` end well, with the result `a` and the disk `d'`? -/
def Ends {α : Type} (task : ExceptT Error (StateM Disk) α) (d : Disk) (a : α) (d' : Disk) : Prop :=
  outcome task d = (.ok a, d')

section

variable {α β : Type} {d d' : Disk}

theorem outcome_bind (x : ExceptT Error (StateM Disk) α) (f : α → ExceptT Error (StateM Disk) β) (d : Disk) :
    outcome (x >>= f) d =
      match outcome x d with
      | (.ok a, d₁) => outcome (f a) d₁
      | (.error e, d₁) => (.error e, d₁) := by
  show (StateT.run (x >>= f).run d : Except Error β × Disk) = _
  rw [ExceptT.run_bind, StateT.run_bind]
  have first : outcome x d = StateT.run x.run d := rfl
  rw [first]
  generalize StateT.run x.run d = r
  rcases r with ⟨_ | a, d₁⟩ <;> rfl

theorem outcome_fileTask (operation : StateM Disk (Except FileError α)) (d : Disk) :
    outcome (fileTask operation) d = ((operation d).1.mapError Error.file, (operation d).2) := rfl

theorem outcome_storageTask (operation : StateM Disk (Except FileError α)) (d : Disk) :
    outcome (Index.storageTask operation) d =
      ((operation d).1.mapError fun e => Error.storage (.file e), (operation d).2) := rfl

theorem ends_pure {a b : α} : Ends (pure a) d b d' ↔ a = b ∧ d = d' := by
  show ((Except.ok a, d) : Except Error α × Disk) = (Except.ok b, d') ↔ _
  simp

theorem not_ends_throw {e : Error} {a : α} : ¬ Ends (throw e) d a d' := fun h => nomatch h

/-- A task in two steps ends well if its steps do. -/
theorem ends_bind {x : ExceptT Error (StateM Disk) α} {f : α → ExceptT Error (StateM Disk) β} {b : β} :
    Ends (x >>= f) d b d' ↔ ∃ a d₁, Ends x d a d₁ ∧ Ends (f a) d₁ b d' := by
  unfold Ends
  rw [outcome_bind]
  rcases outcome x d with ⟨e | a, d₁⟩
  · simp
  · simp only [Prod.mk.injEq, Except.ok.injEq]
    constructor
    · exact fun h => ⟨a, d₁, ⟨rfl, rfl⟩, h⟩
    · rintro ⟨_, _, ⟨rfl, rfl⟩, h⟩
      exact h

/-- An operation of a task ends well if it does not fail. -/
theorem ends_fileTask {operation : StateM Disk (Except FileError α)} {a : α} :
    Ends (fileTask operation) d a d' ↔ operation d = (.ok a, d') := by
  unfold Ends
  rw [outcome_fileTask]
  rcases operation d with ⟨e | b, d₁⟩
  · constructor <;> intro h <;> cases h
  · constructor <;> intro h <;> cases h <;> rfl

theorem ends_storageTask {operation : StateM Disk (Except FileError α)} {a : α} :
    Ends (Index.storageTask operation) d a d' ↔ operation d = (.ok a, d') := by
  unfold Ends
  rw [outcome_storageTask]
  rcases operation d with ⟨e | b, d₁⟩
  · constructor <;> intro h <;> cases h
  · constructor <;> intro h <;> cases h <;> rfl

end

/-! ## Operations -/

section

variable {d d' : Disk}

theorem perform_ok {α : Type} {operation : FileTree → Except FileError α × FileTree} {a : α}
    (h : Disk.perform operation d = (.ok a, d')) : operation d.tree = (.ok a, d'.tree) := by
  unfold Disk.perform at h
  revert h
  rcases hop : operation d.tree with ⟨result, tree⟩
  rcases d.fault with _ | ⟨_ | n, e⟩ <;> intro h <;> cases h <;> rfl

/-- What a failed operation leaves is the tree as it was, or what the operation makes of it. -/
theorem perform_tree {α : Type} {operation : FileTree → Except FileError α × FileTree} {r : Except FileError α}
    (h : Disk.perform operation d = (r, d')) : d'.tree = d.tree ∨ (r, d'.tree) = operation d.tree := by
  unfold Disk.perform at h
  revert h
  rcases hop : operation d.tree with ⟨result, tree⟩
  rcases d.fault with _ | ⟨_ | n, e⟩ <;> (intro h; cases h; simp)

/-- An operation that only looks at a tree leaves it as it is. -/
theorem tree_of_perform_look {α : Type} {look : FileTree → Except FileError α} {r : Except FileError α}
    (h : Disk.perform (fun t => (look t, t)) d = (r, d')) : d'.tree = d.tree := by
  rcases perform_tree h with same | looked
  · exact same
  · exact (Prod.mk.inj looked).2

theorem change_ok {operation : FileTree → Except FileError FileTree}
    (h : Disk.perform (Disk.change operation) d = (.ok (), d')) : operation d.tree = .ok d'.tree := by
  have hc := perform_ok h
  unfold Disk.change at hc
  split at hc
  · rename_i t ht
    cases hc
    exact ht
  · cases hc

theorem change_tree {operation : FileTree → Except FileError FileTree} {r : Except FileError Unit}
    (h : Disk.perform (Disk.change operation) d = (r, d')) : d'.tree = d.tree ∨ operation d.tree = .ok d'.tree := by
  rcases perform_tree h with same | hc
  · exact .inl same
  · unfold Disk.change at hc
    split at hc
    · rename_i t ht
      cases hc
      exact .inr ht
    · exact .inl (Prod.mk.inj hc).2

theorem removeAll_cons (path : String) (rest : List String) (d : Disk) :
    Index.removeAll (m := StateM Disk) (path :: rest) d =
      match (FileStore.remove path : StateM Disk (Except FileError Unit)) d with
      | (.ok (), d₁) => Index.removeAll (m := StateM Disk) rest d₁
      | (.error .notFound, d₁) => Index.removeAll (m := StateM Disk) rest d₁
      | (.error e, d₁) => (.error e, d₁) := by
  rw [Index.removeAll]
  simp only [bind, StateT.bind]
  generalize (FileStore.remove path : StateM Disk (Except FileError Unit)) d = r
  rcases r with ⟨e | u, d₁⟩
  · cases e <;> rfl
  · rfl

/-- What the removal of each file keeps, removing several keeps, however it ends. -/
theorem removeAll_keeps {I : FileTree → Prop} :
    ∀ {paths : List String} {d d' : Disk} {r : Except FileError Unit},
      (∀ path ∈ paths, ∀ t t' : FileTree, I t → t.remove path = .ok t' → I t') →
      Index.removeAll (m := StateM Disk) paths d = (r, d') → I d.tree → I d'.tree
  | [], _, _, _, _, h, hi => by
    cases h
    exact hi
  | path :: rest, d, d', r, hk, h, hi => by
    have rest' := fun p hp => hk p (List.mem_cons_of_mem _ hp)
    rw [removeAll_cons] at h
    rcases hr : (FileStore.remove path : StateM Disk _) d with ⟨one, d₁⟩
    rw [hr] at h
    have hi₁ : I d₁.tree := by
      rcases change_tree hr with same | removed
      · rw [same]
        exact hi
      · exact hk path List.mem_cons_self _ _ hi removed
    rcases one with e | u
    · cases e <;> first
        | exact removeAll_keeps rest' h hi₁
        | (cases h; exact hi₁)
    · exact removeAll_keeps rest' h hi₁

end

end Concordance
