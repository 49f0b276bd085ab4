/-
Exported results: one row per document, as CSV or as JSON.
-/
import Concordance.Document
import Concordance.Json.Printer

namespace Concordance.Output

open Text

inductive ExportFormat where
  | csv
  | json
deriving DecidableEq, Repr, Inhabited

/-! ## CSV -/

/-- A character that may not stand in a CSV field without quotes. -/
def needsQuotes (c : Char) : Bool := c = ',' || c = '"' || c = '\n' || c = '\r'

/-- A CSV field, between quotes if it has to be, its own quotes doubled. -/
def csvField (s : List Char) : List Char :=
  if s.any needsQuotes then
    ['"'] ++ s.flatMap (fun c => if c = '"' then ['"', '"'] else [c]) ++ ['"']
  else s

def csvRecord (fields : List (List Char)) : List Char := joinWith [','] (fields.map csvField) ++ ['\n']

def csvHeader : List String := ["filename", "dataset", "pages", "match_count"]

def csvRow (h : Hit) : List (List Char) :=
  [h.filename.toList, decimal h.dataset.toNat, decimal h.pages.toNat, decimal h.matchCount]

def csv (hits : List Hit) : String :=
  String.ofList ((csvHeader.map String.toList :: hits.map csvRow).flatMap csvRecord)

/-! ## JSON -/

def jsonRow (h : Hit) : Json :=
  .object
    [("filename", .text h.filename), ("dataset", .integer h.dataset.toNat), ("pages", .integer h.pages.toNat),
      ("match_count", .integer h.matchCount), ("filepath", .text h.filepath)]

def json (hits : List Hit) : String := (Json.array (hits.map jsonRow)).pretty ++ "\n"

/-- The exported file. -/
def exportHits : ExportFormat → List Hit → String
  | .csv => csv
  | .json => json

end Concordance.Output
