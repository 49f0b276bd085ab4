/-
Opening a backend where the configuration says that its data are.
-/
import Concordance.Engine.Backend
import Concordance.Index.Build

namespace Concordance

variable {m : Type → Type} [Monad m] [FileStore m]

/-- Opens the index in a file. -/
def Index.openFile (path : String) : ExceptT Error m Index := do
  if (← kindAt? path) = some .file then return .ofRows (← Index.readRows path)
  else throw (.indexNotFound path)

/-- Opens a corpus for scanning. -/
def Corpus.scanner (c : Corpus) (options : Scan.Options) : Scanner := ⟨c.documents, options⟩

/-- What is reported if neither an index nor a corpus is found. -/
def Error.alsoTried (path : String) : Error → Error
  | corpusNotFound candidates => corpusNotFound (path :: candidates)
  | e => e

/-- Opens the backend that is asked for; only scanning takes options. -/
def Backend.openKind (kind : BackendKind) (c : Config) (options : Scan.Options) : ExceptT Error m Backend := do
  let scan : ExceptT Error m Backend := do return .memory ((← Corpus.discover c).scanner options)
  match kind with
  | .index => return .index (← Index.openFile c.indexPath)
  | .memory => scan
  | .auto =>
    if (← kindAt? c.indexPath) = some .file then return .index (← Index.openFile c.indexPath)
    else tryCatch scan fun e => throw (e.alsoTried c.indexPath)

end Concordance
