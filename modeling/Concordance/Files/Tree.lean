/-
A tree of files. Paths are resolved name by name from the working directory or the root, as file systems
do: what stands before a slash has to be a directory, `.` stays and `..` goes up. A file is more than its
place: one that gets another place, or loses it, is still the same file, and who holds it open can tell.
Every operation leaves a tree behind, changed or not, and says what became of it.
-/
import Concordance.Files.Path
import Concordance.Index.Row

namespace Concordance

/-- What a file holds: text, an index in its own format, or what readers of an index share, which is no text. -/
inductive FileContent where
  | text (s : String)
  | index (rows : Index.Rows)
  | shared
deriving DecidableEq, Repr, Inhabited

namespace FileContent

/-- Is there nothing in it? -/
def isEmpty : FileContent → Bool
  | text s => s.isEmpty
  | _ => false

/-- Is the first byte zero? -/
def startsWithZero : FileContent → Bool
  | text s => s.toList.head? = some '\x00'
  | _ => false

/-- Are there fewer bytes than these? Only texts are ever as short as the sizes that matter. -/
def isShorterThan (size : Nat) : FileContent → Bool
  | text s => s.utf8ByteSize < size
  | _ => false

end FileContent

/-- What is at a path. -/
inductive FileKind where
  | file
  | directory
deriving DecidableEq, Repr, Inhabited

/-! ## Errors -/

/-- Why an operation on files did not succeed. -/
inductive FileError where
  | notFound
  | alreadyExists
  | notDirectory
  | isDirectory
  | notText
  | nameTooLong
  | zeroInName
  | other (reason : String)
deriving DecidableEq, Repr, Inhabited

def FileError.message : FileError → String
  | notFound => "No such file or directory (os error 2)"
  | alreadyExists => "File exists (os error 17)"
  | notDirectory => "Not a directory (os error 20)"
  | isDirectory => "Is a directory (os error 21)"
  | notText => "stream did not contain valid UTF-8"
  | nameTooLong => "File name too long (os error 36)"
  | zeroInName => "file name contained an unexpected NUL byte"
  | other reason => reason

/-! ## Trees -/

/-- The names passed from the working directory, `..` for each step up, or from the root, named by the slash. -/
abbrev Place := List String

/-- The place of the root. -/
def Place.root : Place := ["/"]

/-- Is a place the working directory, or one above it? -/
def Place.isAbove (p : Place) : Bool := p.all (· = "..")

/-- The directory that holds a place; the root holds itself. -/
def Place.above (p : Place) : Place :=
  if p = root then root else if p.isAbove then p ++ [".."] else p.dropLast

/-- A file among all that a tree has ever had. -/
abbrev FileId := Nat

inductive FileNode where
  | file (id : FileId)
  | directory
deriving DecidableEq, Repr, Inhabited

def FileNode.kind : FileNode → FileKind
  | file _ => .file
  | directory => .directory

/-- What there is below the directories that are always there, and what each file holds that ever had a place. -/
structure FileTree where
  nodes : List (Place × FileNode)
  contents : Array FileContent
deriving DecidableEq, Repr, Inhabited

namespace FileTree

/-- No files yet. -/
def empty : FileTree := ⟨[], #[]⟩

def node? (t : FileTree) (p : Place) : Option FileNode :=
  if p.isAbove || p = Place.root then some .directory else t.nodes.lookup p

def erase (t : FileTree) (p : Place) : FileTree := { t with nodes := t.nodes.filter (·.1 != p) }

def put (t : FileTree) (p : Place) (n : FileNode) : FileTree := { t with nodes := (p, n) :: (t.erase p).nodes }

/-- What a file holds, whether it has a place or not. -/
def content (t : FileTree) (id : FileId) : FileContent := t.contents.getD id default

def setContent (t : FileTree) (id : FileId) (content : FileContent) : FileTree :=
  { t with contents := t.contents.setIfInBounds id content }

/-- Puts a new file at a place. -/
def putNew (t : FileTree) (p : Place) (content : FileContent) : FileTree :=
  { t.put p (.file t.contents.size) with contents := t.contents.push content }

/-! ## Paths -/

/-- Where a path starts, and the names it gives from there. -/
def route (path : String) : Place × List String :=
  let names := (Text.pieces (· == '/') path.toList).map String.ofList
  if Path.isAbsolute path then (Place.root, names) else ([], names)

/-- The most bytes that a name may have. -/
def maxNameSize : Nat := 255

/-- The most bytes that a path may have. -/
def maxPathSize : Nat := 4095

/-- Follows names from a place. All but the last place have to be directories. -/
def walk (t : FileTree) (p : Place) : List String → Except FileError Place
  | [] => .ok p
  | name :: rest =>
    match t.node? p with
    | none => .error .notFound
    | some (.file _) => .error .notDirectory
    | some .directory =>
      if name = "" || name = "." then walk t p rest
      else if name = ".." then walk t p.above rest
      else if maxNameSize < name.utf8ByteSize then .error .nameTooLong
      else walk t (p ++ [name]) rest

/-- Refuses paths that no file system takes. -/
def checkPath (path : String) : Except FileError Unit :=
  if path.toList.contains '\x00' then .error .zeroInName
  else if path.isEmpty then .error .notFound
  else if maxPathSize < path.utf8ByteSize then .error .nameTooLong
  else .ok ()

/-- The place of a path; what is there may not exist. -/
def place? (t : FileTree) (path : String) : Except FileError Place := do
  checkPath path
  walk t (route path).1 (route path).2

/-! ## Operations -/

def kind? (t : FileTree) (path : String) : Option FileKind :=
  match t.place? path with
  | .error _ => none
  | .ok p => (t.node? p).map FileNode.kind

/-- The file at a path. -/
def file? (t : FileTree) (path : String) : Except FileError FileId := do
  match t.node? (← t.place? path) with
  | none => .error .notFound
  | some .directory => .error .isDirectory
  | some (.file id) => .ok id

def read (t : FileTree) (path : String) : Except FileError FileContent := do return t.content (← t.file? path)

/-- Makes the content of a file, whether the file is there or not. -/
def write (t : FileTree) (path : String) (content : FileContent) : Except FileError FileTree := do
  let p ← t.place? path
  match t.node? p with
  | some .directory => .error .isDirectory
  | some (.file id) => .ok (t.setContent id content)
  | none => .ok (t.putNew p content)

/-- Removes a file. -/
def remove (t : FileTree) (path : String) : Except FileError FileTree := do
  let _ ← t.file? path
  return t.erase (← t.place? path)

/-- Gives a file another path, where a file may already be. If it is this file, it keeps both paths. -/
def rename (t : FileTree) (source target : String) : Except FileError FileTree := do
  let id ← t.file? source
  let q ← t.place? target
  if t.node? q = some .directory then .error .isDirectory
  else if t.node? q = some (.file id) then return t
  else return (t.erase (← t.place? source)).put q (.file id)

/-- Makes a directory in one that is there. `.` and `..` are there if what stands before them is. -/
def makeDirectory (t : FileTree) (path : String) : Except FileError FileTree := do
  checkPath path
  let (start, names) := route path
  let names := (names.reverse.dropWhile (·.isEmpty)).reverse
  let p ← walk t start names.dropLast
  match t.node? p, names.getLast? with
  | none, _ => .error .notFound
  | some (.file _), _ => .error .notDirectory
  | some .directory, none => .error .alreadyExists
  | some .directory, some name =>
    if name = "." || name = ".." then .error .alreadyExists
    else if maxNameSize < name.utf8ByteSize then .error .nameTooLong
    else if (t.node? (p ++ [name])).isSome then .error .alreadyExists
    else .ok (t.put (p ++ [name]) .directory)

/--
Makes the first of the directories, each of which is in the next. If the next is missing, it is made first,
and what was made stays even if the first cannot be made.
-/
def makeLineage (t : FileTree) : List String → Except FileError Unit × FileTree
  | [] => (.ok (), t)
  | path :: above =>
    let accept (t : FileTree) (e : FileError) : Except FileError Unit × FileTree :=
      if e = .alreadyExists && t.kind? path = some .directory then (.ok (), t) else (.error e, t)
    match t.makeDirectory path with
    | .ok t => (.ok (), t)
    | .error .notFound =>
      match makeLineage t above with
      | (.error e, t) => (.error e, t)
      | (.ok (), t) =>
        match t.makeDirectory path with
        | .ok t => (.ok (), t)
        | .error e => accept t e
    | .error e => accept t e

/-- Makes a directory and those above it, as far as they are missing. -/
def createDirectories (t : FileTree) (path : String) : Except FileError Unit × FileTree :=
  if path.isEmpty then (.ok (), t) else makeLineage t (Path.lineage path)

/-- The names in a directory, in the order of code points. -/
def list (t : FileTree) (path : String) : Except FileError (List String) := do
  let p ← t.place? path
  match t.node? p with
  | none => .error .notFound
  | some (.file _) => .error .notDirectory
  | some .directory =>
    let names := t.nodes.filterMap fun (q, _) => if q.dropLast = p then q.getLast? else none
    return names.mergeSort (· ≤ ·)

end FileTree

end Concordance
