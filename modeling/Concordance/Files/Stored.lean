/-
The bytes of files, and how many there are. Text is stored in UTF-8. An index is stored as a byte that starts no
text, and behind it its rows as JSON; what readers share is another byte that starts no text.
-/
import Concordance.Files.Tree
import Concordance.Json.Printer

namespace Concordance

open Json

namespace Index

def Row.toJson (r : Row) : Json :=
  .array
    [.integer r.id.toNat, .integer r.dataset.toNat, .text r.filename, .text r.filepath, .integer r.pages.toNat,
      (r.pageOffsets.map Json.text).getD .null, .text r.text]

def Row.ofItems (items : List Json) : Except Fault Row :=
  readPositional items do
    let id ← next "Row" 7 0 toUInt32
    let dataset ← next "Row" 7 1 toUInt32
    let filename ← next "Row" 7 2 toText
    let filepath ← next "Row" 7 3 toText
    let pages ← next "Row" 7 4 toUInt32
    let pageOffsets ← next "Row" 7 5 (toOptional toText)
    let text ← next "Row" 7 6 toText
    return ⟨id, dataset, filename, filepath, pages, pageOffsets, text⟩

def Row.ofJson (value : Json) : Except Fault Row := do Row.ofItems (← value.toItems)

def Rows.toText (rows : Rows) : String := (Json.array (rows.list.map Row.toJson)).pretty

/-- Reads the rows of an index, whose ids have to be distinct. -/
def Rows.ofText? (text : String) : Option Rows := do
  let items ← (← Json.parse? text).toItems.toOption
  Rows.empty.insertAll? (← (items.mapM Row.ofJson).toOption)

end Index

namespace FileContent

/-- The first byte of a stored index. -/
def indexMark : UInt8 := 0xff

/-- The byte that stands for what the readers of an index share. -/
def sharedMark : UInt8 := 0xfe

def toBytes : FileContent → ByteArray
  | text s => s.toUTF8
  | index rows => ⟨#[indexMark]⟩ ++ rows.toText.toUTF8
  | shared => ⟨#[sharedMark]⟩

/-- The number of its bytes. -/
def size (content : FileContent) : Nat := content.toBytes.size

/-- The content that bytes store. Bytes that are neither text nor an index are reported as no text. -/
def ofBytes (bytes : ByteArray) : Except FileError FileContent :=
  if bytes.toList.head? = some indexMark then
    match (String.fromUTF8? (bytes.extract 1 bytes.size)).bind Index.Rows.ofText? with
    | some rows => .ok (.index rows)
    | none => .error .notText
  else if bytes.toList = [sharedMark] then .ok .shared
  else
    match String.fromUTF8? bytes with
    | some s => .ok (.text s)
    | none => .error .notText

end FileContent

/-- The number of bytes of what is at a path. A directory has none of its own. -/
def FileTree.size (t : FileTree) (path : String) : Except FileError Nat := do
  match t.node? (← t.place? path) with
  | none => .error .notFound
  | some .directory => .ok 0
  | some (.file id) => .ok (t.content id).size

end Concordance
