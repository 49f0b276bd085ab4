/-
What keeps the program from answering. Queries are no cause of errors, unless the request is strict: they
are repaired, and the repairs reported with the answer. That a term is too long for a compiler of patterns is
no error here either, since terms are searched for without one.
-/
import Concordance.Files.Tree
import Concordance.Query.Plan

namespace Concordance

/-- Why an index file cannot be used. -/
inductive StorageFault where
  | notAnIndex
  /-- The file holds nothing. -/
  | noTables
  /-- A writer has left a journal. -/
  | unsettled
  | duplicateId
  /-- The path is too long. -/
  | cannotOpen
  | file (error : FileError)
deriving DecidableEq, Repr, Inhabited

def StorageFault.message : StorageFault → String
  | notAnIndex => "file is not a database"
  | noTables => "no such table: documents"
  | unsettled => "attempt to write a readonly database"
  | duplicateId => "two documents have the same id"
  | cannotOpen => "unable to open database file"
  | file e => e.message

inductive Error where
  | storage (fault : StorageFault)
  | file (error : FileError)
  /-- A corpus file holds no JSON. -/
  | json
  | corpusNotFound (candidates : List String)
  | invalidCorpus (path reason : String)
  | indexNotFound (path : String)
  /-- The query of a strict request is ambiguous. -/
  | ambiguous (warning : Warning)
deriving DecidableEq, Repr, Inhabited

def Error.message : Error → String
  | storage fault => "storage error: " ++ fault.message
  | file e => "I/O error: " ++ e.message
  | json => "JSON error: not a JSON text"
  | corpusNotFound candidates =>
    "no corpus found (tried " ++ String.ofList (Text.joinWith [',', ' '] (candidates.map String.toList)) ++
      "); run the text extractor first"
  | invalidCorpus path reason => "corpus " ++ path ++ " is not a recognised format: " ++ reason
  | indexNotFound path => "search index " ++ path ++ " not found; run `folio build` first"
  | ambiguous warning => "ambiguous query: " ++ warning.message

end Concordance
