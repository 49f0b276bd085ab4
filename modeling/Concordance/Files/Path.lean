/-
Paths of files, written with slashes. Two spellings are the same path if they differ only in repeated
slashes, a slash at the end, or parts `.` behind the first; a path that starts at `.` is another path than
the one without it.
-/
import Concordance.Text.Blank

namespace Concordance.Path

open Text

def isAbsolute (p : String) : Bool := p.toList.head? = some '/'

/-- The names that a path passes, `..` among them. -/
def parts (p : String) : List String :=
  ((pieces (· == '/') p.toList).filter fun s => !s.isEmpty && s != ['.']).map String.ofList

/-- Does a path say that it starts in the working directory? -/
def startsHere (p : String) : Bool := (pieces (· == '/') p.toList).head? = some ['.']

/-- Are two spellings the same path? -/
def same (p q : String) : Bool :=
  isAbsolute p == isAbsolute q && startsHere p == startsHere q && parts p == parts q

/-- A file name or path as seen from a directory. -/
def join (directory file : String) : String :=
  if isAbsolute file || directory.isEmpty then file
  else if directory.toList.getLast? = some '/' then directory ++ file
  else directory ++ "/" ++ file

/-- The path whose file name has a suffix more. -/
def sibling (p suffix : String) : String := p ++ suffix

/-- The spelling of names from the working directory, or from the root. -/
def spell (absolute : Bool) (names : List String) : String :=
  let text := String.ofList (joinWith ['/'] (names.map String.toList))
  if absolute then "/" ++ text else text

/-- The directory that holds a path, unless the path is a name alone or has none. -/
def parent? (p : String) : Option String :=
  match (parts p).dropLast, isAbsolute p with
  | [], absolute => if absolute && !(parts p).isEmpty then some "/" else none
  | names, absolute => some (spell absolute names)

/-- A path, and the directories that it passes below the working directory or the root, the nearest first. -/
def lineage (p : String) : List String :=
  let names := parts p
  p :: (List.range (names.length - 1)).reverse.map fun i => spell (isAbsolute p) (names.take (i + 1))

end Concordance.Path
