/-
What the program does with files, said once for the files of a machine and for a tree in memory. In a tree
one operation may be made to fail for a reason of its own, so that it can be seen what is left behind.
-/
import Concordance.Files.Stored

namespace Concordance

/-- Files that can be worked with. -/
class FileStore (m : Type → Type) where
  /-- What is at a path, if anything is. What cannot be looked at is taken for nothing. -/
  kind? : String → m (Option FileKind)
  /-- The number of bytes of what is at a path. -/
  size : String → m (Except FileError Nat)
  read : String → m (Except FileError FileContent)
  write : String → FileContent → m (Except FileError Unit)
  remove : String → m (Except FileError Unit)
  rename : String → String → m (Except FileError Unit)
  createDirectories : String → m (Except FileError Unit)

/-- A tree of files, and if an operation is to fail, which: the number of those before it, and its error. -/
structure Disk where
  tree : FileTree
  fault : Option (Nat × FileError)
deriving DecidableEq, Repr, Inhabited

namespace Disk

/-- A disk without files on which every operation does its work. -/
def empty : Disk := ⟨.empty, none⟩

/-- Carries out an operation, unless it is the one that fails. -/
def perform {α : Type} (operation : FileTree → Except FileError α × FileTree) :
    StateM Disk (Except FileError α) :=
  fun d =>
    let (result, tree) := operation d.tree
    match d.fault with
    | some (0, e) => (.error e, ⟨d.tree, none⟩)
    | some (n + 1, e) => (result, ⟨tree, some (n, e)⟩)
    | none => (result, ⟨tree, none⟩)

/-- The operation that changes a tree, or leaves it as it is. -/
def change (operation : FileTree → Except FileError FileTree) (t : FileTree) :
    Except FileError Unit × FileTree :=
  match operation t with
  | .ok t' => (.ok (), t')
  | .error e => (.error e, t)

end Disk

instance : FileStore (StateM Disk) where
  kind? path := do return (← Disk.perform fun t => (.ok (t.kind? path), t)).toOption.join
  size path := Disk.perform fun t => (t.size path, t)
  read path := Disk.perform fun t => (t.read path, t)
  write path content := Disk.perform (Disk.change (·.write path content))
  remove path := Disk.perform (Disk.change (·.remove path))
  rename source target := Disk.perform (Disk.change (·.rename source target))
  createDirectories path := Disk.perform (·.createDirectories path)

end Concordance
