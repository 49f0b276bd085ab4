/-
What the index stores: a row per document, with its page table as JSON text, and for searching the tokens
of its text.
-/
import Concordance.Corpus.Decode
import Concordance.Index.Token

namespace Concordance.Index

/-- A stored document. The page table is JSON text; a table without entries is not stored. -/
structure Row where
  id : UInt32
  dataset : UInt32
  filename : String
  filepath : String
  pages : UInt32
  pageOffsets : Option String
  text : String
deriving DecidableEq, Repr, Inhabited

/-- A page table as JSON text. -/
def offsetsText (offsets : List Nat) : String :=
  String.ofList (['['] ++ Text.joinWith [','] (offsets.map Text.decimal) ++ [']'])

/-- The page table that a JSON text holds, if it holds one. -/
def readOffsets? (text : String) : Option (List Nat) := do
  let value ← Json.parse? text
  value.toOffsets.toOption

/-- The row of a document. -/
def Row.ofDocument (d : Document) : Row :=
  { id := d.id, dataset := d.dataset, filename := d.filename, filepath := d.filepath, pages := d.pages
    pageOffsets := (d.pageOffsets.filter (!·.isEmpty)).map offsetsText
    text := d.text }

/-- The stored page table, read back. -/
def Row.offsets? (r : Row) : Option (List Nat) := r.pageOffsets.bind readOffsets?

/-- Do rows in the order of their ids have distinct ids? -/
def haveDistinctIds : List Row → Bool
  | r :: s :: rest => r.id ≠ s.id && haveDistinctIds (s :: rest)
  | _ => true

/-- The rows of an index in the order of their ids, which are distinct. -/
structure Rows where
  list : List Row
deriving DecidableEq, Repr, Inhabited

namespace Rows

def empty : Rows := ⟨[]⟩

/-- Adds rows, unless then two rows have the same id. -/
def insertAll? (rows : Rows) (added : List Row) : Option Rows :=
  let all := (rows.list ++ added).mergeSort fun r s => r.id ≤ s.id
  if haveDistinctIds all then some ⟨all⟩ else none

def stats (rows : Rows) : Stats := ⟨rows.list.length, totalOf (·.pages.toNat) rows.list⟩

end Rows

end Concordance.Index
