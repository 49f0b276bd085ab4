/-
Records of a corpus: documents as they were read, or why a record could not become a document. A record
keeps its position, and a document's id is its position counted from 1.
-/
import Concordance.Document
import Concordance.Json.Schema

namespace Concordance

/-- A record that is no document. -/
structure RecordError where
  position : Nat
  filename : Option String
  fault : Json.Fault
deriving DecidableEq, Repr, Inhabited

def RecordError.message (e : RecordError) : String :=
  "record " ++ Text.decimalText e.position ++ " (" ++ e.filename.getD "unnamed" ++ "): " ++ e.fault.message

inductive Record where
  | valid (document : Document)
  | invalid (error : RecordError)
deriving DecidableEq, Repr, Inhabited

def Record.document? : Record → Option Document
  | valid d => some d
  | invalid _ => none

def Record.error? : Record → Option RecordError
  | valid _ => none
  | invalid e => some e

inductive CorpusFormat where
  | full
  | flat
deriving DecidableEq, Repr, Inhabited

/-- The records of a corpus in their order, and the file that they were read from. -/
structure Corpus where
  records : List Record
  format : CorpusFormat
  source : Option String
deriving DecidableEq, Repr, Inhabited

namespace Corpus

def documents (c : Corpus) : List Document := c.records.filterMap Record.document?

def errors (c : Corpus) : List RecordError := c.records.filterMap Record.error?

end Corpus

/-- Numbers a document by its position, and drops its page table if the table does not fit its text. -/
def Record.accept (position : Nat) (d : Document) : Record :=
  .valid { d with
    id := UInt32.ofNat (position + 1)
    pageOffsets := d.pageOffsets.filter fun offsets => (Page.fault? offsets d.text.length).isNone }

/-- A corpus of given documents, numbered anew. -/
def Corpus.ofDocuments (docs : List Document) : Corpus :=
  ⟨docs.mapIdx Record.accept, .flat, none⟩

end Concordance
