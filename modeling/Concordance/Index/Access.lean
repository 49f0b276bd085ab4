/-
Who may read the file of an index, and what else stands beside it. A writer leaves a rollback journal while
it changes the file: until it is settled by a writer, the file is not to be read. A log of changes that are
not yet in the file is read together with the file, by readers that share what they know of it. A log or
journal that holds nothing counts for nothing, and beside a file that holds nothing so does a journal.
-/
import Concordance.Corpus.Load
import Concordance.Index.Location
import Concordance.Index.Row

namespace Concordance.Index

variable {m : Type → Type} [Monad m] [FileStore m]

/-- An operation on the file of an index that is being written or read. -/
def storageTask {α : Type} (operation : m (Except FileError α)) : ExceptT Error m α :=
  ExceptT.mk do return (← operation).mapError fun e => Error.storage (.file e)

/-- Removes the files that are there of those given, up to the first that cannot be removed. -/
def removeAll : List String → m (Except FileError Unit)
  | [] => pure (.ok ())
  | path :: rest => do
    match ← FileStore.remove path with
    | .ok () => removeAll rest
    | .error .notFound => removeAll rest
    | .error e => pure (.error e)

/-- Removes an index with its log. -/
def removeIndex (path : String) : m (Except FileError Unit) := removeAll (path :: journals path)

/-! ## Reading -/

/-- Does the file of an index hold nothing? A single byte is nothing too: a file may be claimed by one. -/
def isVoid (content : FileContent) : Bool := content.isShorterThan 2

/-- What stands beside an index. -/
inductive Companion where
  | directory
  | file (content : FileContent)
deriving DecidableEq, Repr, Inhabited

/-- What is at the path of a companion, unless it is a file that holds nothing. -/
def companion? (path : String) : ExceptT Error m (Option Companion) := do
  match ← kindAt? path with
  | none => return none
  | some .directory => return some .directory
  | some .file =>
    let content ← storageTask (FileStore.read path)
    return if content.isEmpty then none else some (.file content)

/-- Fails unless something is at the path of an index, without which its companions cannot be opened. -/
def checkNamed (path : String) : ExceptT Error m Unit := do
  if (← kindAt? path).isNone then throw (.storage (.file .notFound))

/-- Fails if a writer has to settle a journal first. One that starts with a zero byte is settled. -/
def checkRollback (path : String) (content : FileContent) : ExceptT Error m Unit := do
  if isVoid content then return ()
  match ← companion? (rollbackPath path) with
  | none => return ()
  | some .directory => throw (.storage (.file .isDirectory))
  | some (.file journal) =>
    checkNamed path
    if journal.startsWithZero then return () else throw (.storage .unsettled)

/-- The size of the head of a log. A shorter log tells nothing, so its readers need not share anything. -/
def logHeadSize : Nat := 32

/-- Readers share what they know of a log, which holds some bytes. -/
def share (path : String) (log : FileContent) : ExceptT Error m Unit := do
  match ← kindAt? (sharedPath path) with
  | some .directory =>
    if log.isShorterThan logHeadSize then return () else throw (.storage (.file .isDirectory))
  | _ => storageTask (FileStore.write (sharedPath path) .shared)

/--
Joins the readers of a log, if there is one, and tells whether there is. The log of a file that holds
nothing is removed.
-/
def joinLog (path : String) (content : FileContent) : ExceptT Error m Bool := do
  match ← companion? (logPath path) with
  | none => return false
  | some .directory => throw (.storage (.file .isDirectory))
  | some (.file log) =>
    if isVoid content then
      storageTask (FileStore.remove (logPath path))
      return false
    else
      checkNamed path
      share path log
      return true

/-- Settles what stands beside an index for a reader of the file, and tells whether it now reads a log too. -/
def settle (path : String) (content : FileContent) : ExceptT Error m Bool := do
  checkRollback path content
  joinLog path content

/-- The rows in the file of an index. -/
def rowsOf : FileContent → Except StorageFault Rows
  | .index rows => .ok rows
  | content => .error (if isVoid content then .noTables else .notAnIndex)

/-- Fails if a path is too long for an index. -/
def checkLength (path : String) : ExceptT Error m Unit := do
  if isTooLong path then throw (.storage .cannotOpen)

/-- The rows stored in a file. -/
def readRows (path : String) : ExceptT Error m Rows := do
  checkLength path
  let path := resolve path
  let content ← storageTask (FileStore.read path)
  let _ ← settle path content
  ExceptT.mk (pure ((rowsOf content).mapError Error.storage))

end Concordance.Index
