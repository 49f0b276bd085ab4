/-
Loading a corpus from a file: from a given one, or from the first that is there of those where a corpus may be.
-/
import Concordance.Config
import Concordance.Corpus.Decode
import Concordance.Error
import Concordance.Files.Store

namespace Concordance

variable {m : Type → Type} [Monad m]

/-- An operation on files as a task of the program, which fails if the operation does. -/
def fileTask {α : Type} (operation : m (Except FileError α)) : ExceptT Error m α :=
  ExceptT.mk do return (← operation).mapError Error.file

/-- What is at a path, if anything is. -/
def kindAt? [FileStore m] (path : String) : ExceptT Error m (Option FileKind) :=
  ExceptT.lift (FileStore.kind? path)

namespace Corpus

/-- The corpus that a text holds, which was read from a file if there is a source. -/
def ofText (source : Option String) (text : String) : Except Error Corpus :=
  match Json.parse? text with
  | none => .error .json
  | some value =>
    match ofJson value with
    | .error e => .error (.invalidCorpus (source.getD "<inline>") e.message)
    | .ok c => .ok { c with source }

/-- The corpus in a file. -/
def load [FileStore m] (path : String) : ExceptT Error m Corpus := do
  match ← fileTask (FileStore.read path) with
  | .text s => ExceptT.mk (pure (ofText (some path) s))
  | _ => throw (.file .notText)

/-- The first of the paths that is a file. -/
def findFile? [FileStore m] : List String → ExceptT Error m (Option String)
  | [] => return none
  | path :: rest => do if (← kindAt? path) = some .file then return some path else findFile? rest

/-- The first candidate that is a file; that there is none is an error. -/
def findSource [FileStore m] (candidates : List String) : ExceptT Error m String := do
  match ← findFile? candidates with
  | some path => return path
  | none => throw (.corpusNotFound candidates)

/-- The corpus where the configuration says that one may be. -/
def discover [FileStore m] (c : Config) : ExceptT Error m Corpus := do load (← findSource c.corpusCandidates)

end Corpus

end Concordance
