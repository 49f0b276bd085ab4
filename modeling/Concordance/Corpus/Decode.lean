/-
A corpus from JSON. The flat format is an array of documents. The full format is an object whose field
`datasets` lists datasets with the files extracted for each: a file with text becomes a document whose page
table is derived from the form feeds, and a file without text, or with an error, leaves no record. A record
that does not fit is kept as an error, but a dataset that does not fit spoils the corpus.
-/
import Concordance.Corpus.Record
import Concordance.Json.Parser

namespace Concordance

open Json

/-! ## Records -/

namespace Document

/-- A document from the fields of an object. -/
def ofFields (fields : List (String × Json)) : Except Fault Document := do
  let dataset ← fieldIfPresent fields "dataset" toUInt32
  let filename ← fieldIfPresent fields "filename" toText
  let filepath ← fieldIfPresent fields "filepath" toText
  let id ← fieldIfPresent fields "id" toUInt32
  let pageOffsets ← fieldIfPresent fields "page_offsets" (toOptional toOffsets)
  let pages ← fieldIfPresent fields "pages" toUInt32
  let text ← fieldIfPresent fields "text" toText
  return {
    id := id.getD 0
    dataset := ← present "dataset" dataset
    filename := ← present "filename" filename
    filepath := ← present "filepath" filepath
    pages := ← present "pages" pages
    text := text.getD ""
    pageOffsets := pageOffsets.join }

/-- A document from its fields in their order. -/
def ofItems (items : List Json) : Except Fault Document :=
  readPositional items do
    let id ← nextIfPresent toUInt32
    let dataset ← next "Document" 7 1 toUInt32
    let filename ← next "Document" 7 2 toText
    let filepath ← next "Document" 7 3 toText
    let pages ← next "Document" 7 4 toUInt32
    let text ← nextIfPresent toText
    let pageOffsets ← nextIfPresent (toOptional toOffsets)
    return ⟨id.getD 0, dataset, filename, filepath, pages, text.getD "", pageOffsets.join⟩

def ofJson : Json → Except Fault Document
  | .object fields => ofFields fields
  | .array items => ofItems items
  | value => value.mismatch "struct Document"

end Document

/-- A dataset of the full format. -/
structure Dataset where
  number : UInt32
  files : List Json

namespace Dataset

def ofFields (fields : List (String × Json)) : Except Fault Dataset := do
  let number ← fieldIfPresent fields "dataset_number" toUInt32
  let files ← fieldIfPresent fields "files" toItems
  return ⟨← present "dataset_number" number, files.getD []⟩

def ofItems (items : List Json) : Except Fault Dataset :=
  readPositional items do
    let number ← next "ExtractedDataset" 2 0 toUInt32
    let files ← nextIfPresent toItems
    return ⟨number, files.getD []⟩

def ofJson : Json → Except Fault Dataset
  | .object fields => ofFields fields
  | .array items => ofItems items
  | value => value.mismatch "struct ExtractedDataset"

end Dataset

/-- A file of the full format is worth a record if it has text and no error. -/
def isExtracted (file : Json) : Bool :=
  (file.field? "error").isNone && ((file.field? "full_text").bind Json.text?).any fun s => !s.isEmpty

/-- The document of an extracted file. -/
def Document.ofFile (dataset : UInt32) (file : Json) : Except Fault Document := do
  let fields := match file with | .object fields => fields | _ => []
  let filename ← fieldIfPresent fields "filename" toText
  let filepath ← fieldIfPresent fields "filepath" toText
  let text ← fieldIfPresent fields "full_text" toText
  let pages ← fieldIfPresent fields "pages" toUInt32
  let filename ← present "filename" filename
  let filepath ← present "filepath" filepath
  let text ← present "full_text" text
  return {
    id := 0, dataset, filename, filepath, pages := pages.getD 0, text
    pageOffsets := some (Page.deriveOffsets text.toList) }

/-- The record of an item, decoded or not, at its position. -/
def Record.ofDecoded (position : Nat) (item : Json) : Except Fault Document → Record
  | .ok d => accept position d
  | .error fault => .invalid ⟨position, (item.field? "filename").bind Json.text?, fault⟩

/-! ## Corpora -/

namespace Corpus

/-- Why a JSON value is no corpus. -/
inductive FormatError where
  | noDatasets
  | notACorpus
  | badDataset (index : Nat) (fault : Fault)
deriving DecidableEq, Repr, Inhabited

def FormatError.message : FormatError → String
  | noDatasets => "object corpus has no `datasets` array"
  | notACorpus => "expected an array of documents or an object with `datasets`"
  | badDataset index fault => "dataset entry " ++ Text.decimalText index ++ ": " ++ fault.message

def flatRecords (items : List Json) : List Record :=
  items.mapIdx fun position item => Record.ofDecoded position item (Document.ofJson item)

/-- The datasets of the full format. -/
def datasets (index : Nat) : List Json → Except FormatError (List Dataset)
  | [] => .ok []
  | entry :: rest =>
    match Dataset.ofJson entry with
    | .error fault => .error (.badDataset index fault)
    | .ok d => (datasets (index + 1) rest).map (d :: ·)

/-- The extracted files of datasets, each with the number of its dataset. -/
def extractedFiles (ds : List Dataset) : List (UInt32 × Json) :=
  ds.flatMap fun d => (d.files.filter isExtracted).map fun file => (d.number, file)

def fullRecords (ds : List Dataset) : List Record :=
  (extractedFiles ds).mapIdx fun position (number, file) =>
    Record.ofDecoded position file (Document.ofFile number file)

/-- The corpus that a JSON value holds. -/
def ofJson : Json → Except FormatError Corpus
  | .array items => .ok ⟨flatRecords items, .flat, none⟩
  | .object fields =>
    match lookup? "datasets" fields with
    | some (.array entries) => (datasets 0 entries).map fun ds => ⟨fullRecords ds, .full, none⟩
    | _ => .error .noDatasets
  | _ => .error .notACorpus

end Corpus

/-! ## Documents as JSON -/

/-- A document as an object of the flat format. -/
def Document.toJson (d : Document) : Json :=
  .object <|
    [("id", .integer d.id.toNat), ("dataset", .integer d.dataset.toNat), ("filename", .text d.filename),
      ("filepath", .text d.filepath), ("pages", .integer d.pages.toNat), ("text", .text d.text)] ++
    match d.pageOffsets with
    | none => []
    | some offsets => [("page_offsets", .array (offsets.map fun (o : Nat) => .integer o))]

end Concordance
