/-
Where an index is. Its companions have its path with a suffix. A path is opened as it is spelled: what it
goes back from by `..` need not be there.
-/
import Concordance.Files.Path

namespace Concordance.Index

/-! ## Companions -/

/-- The rollback journal of an index. -/
def rollbackPath (path : String) : String := Path.sibling path "-journal"

/-- The log of an index. -/
def logPath (path : String) : String := Path.sibling path "-wal"

/-- What the readers of a log share. -/
def sharedPath (path : String) : String := Path.sibling path "-shm"

/-- The log and what its readers share. Beside another index they would be taken for its own. -/
def journals (path : String) : List String := [logPath path, sharedPath path]

/-! ## Paths -/

/-- Names with each `..` and the name in front of it taken away. What has no name in front stays or is none. -/
def resolveNames (absolute : Bool) (names : List String) : List String :=
  let follow (kept : List String) (name : String) : List String :=
    match kept with
    | [] => if absolute && name = ".." then [] else [name]
    | last :: rest => if name = ".." && last != ".." then rest else name :: kept
  (names.foldl follow []).reverse

/-- A path as it is spelled, without steps back. -/
def resolve (path : String) : String :=
  let absolute := Path.isAbsolute path
  Path.spell absolute (resolveNames absolute (Path.parts path))

/-- The most bytes of the path of an index, counted from the root; its companions need some more. -/
def maxPathSize : Nat := 504

/-- The bytes that are set aside for the working directory. -/
def workingDirectorySize : Nat := 16

/-- Is a path too long for an index? -/
def isTooLong (path : String) : Bool :=
  maxPathSize < (resolve path).utf8ByteSize + if Path.isAbsolute path then 0 else workingDirectorySize

end Concordance.Index
