/-
Places in a text. A match is found as a span of bytes of the text's UTF-8 form; readers are told places in
characters. A cursor turns the one into the other and remembers where it is, so that spans in rising order
cost one pass over the text together.
-/
namespace Concordance.Scan

/-- The bytes that a text takes in UTF-8. -/
def byteLength : List Char → Nat
  | [] => 0
  | c :: rest => c.utf8Size + byteLength rest

/-- A run of a text, by the bytes before its start and before its end. -/
structure Span where
  start : Nat
  stop : Nat
deriving DecidableEq, Repr, Inhabited

/-- The text behind its first `n` bytes. -/
def dropBytes : Nat → List Char → List Char
  | 0, s => s
  | _ + 1, [] => []
  | n + 1, c :: rest => dropBytes (n + 1 - c.utf8Size) rest

/-- The first `n` bytes of a text. -/
def takeBytes : Nat → List Char → List Char
  | 0, _ => []
  | _ + 1, [] => []
  | n + 1, c :: rest => c :: takeBytes (n + 1 - c.utf8Size) rest

/-- The text of a span. -/
def Span.textIn (span : Span) (text : List Char) : List Char :=
  takeBytes (span.stop - span.start) (dropBytes span.start text)

/-! ## Counting characters -/

/-- A place in a text: the bytes and the characters before it, and the text behind it. -/
structure Cursor where
  text : List Char
  bytes : Nat
  chars : Nat
  rest : List Char

namespace Cursor

/-- The cursor at the start of a text. -/
def start (text : List Char) : Cursor := ⟨text, 0, 0, text⟩

/-- Moves on until `byte` bytes lie before the cursor, or to the end of the text. -/
def advance (byte : Nat) (text : List Char) (bytes chars : Nat) : List Char → Cursor
  | [] => ⟨text, bytes, chars, []⟩
  | c :: rest =>
    if byte ≤ bytes then ⟨text, bytes, chars, c :: rest⟩
    else advance byte text (bytes + c.utf8Size) (chars + 1) rest

/-- Moves to a byte offset: on from where the cursor is, or from the start if that lies behind. -/
def moveTo (k : Cursor) (byte : Nat) : Cursor :=
  if byte < k.bytes then advance byte k.text 0 0 k.text else advance byte k.text k.bytes k.chars k.rest

/-- The places in characters of byte offsets, which one cursor visits in turn. -/
def charOffsets (k : Cursor) : List Nat → List Nat
  | [] => []
  | byte :: rest => (k.moveTo byte).chars :: charOffsets (k.moveTo byte) rest

end Cursor

/-! ## The text around a span -/

/-- The bytes before each character of a text that lies behind `bytes` bytes. -/
def charStarts (bytes : Nat) : List Char → List Nat
  | [] => []
  | c :: rest => bytes :: charStarts (bytes + c.utf8Size) rest

/-- The byte that lies `count` characters before another one, or the start of the text if there are fewer. -/
def stepBack (text : List Char) (byte count : Nat) : Nat :=
  ((charStarts 0 (takeBytes byte text)).reverse.take count).getLast?.getD byte

/-- The byte that lies `count` characters behind another one, or the end of the text if there are fewer. -/
def stepOn (text : List Char) (byte count : Nat) : Nat :=
  (charStarts byte (dropBytes byte text))[count]?.getD (byteLength text)

/--
The span with up to `radius` characters on each side, and `...` on the sides where the text goes on.
-/
def excerpt (text : List Char) (span : Span) (radius : Nat) : List Char :=
  let shown : Span := ⟨stepBack text span.start radius, stepOn text span.stop radius⟩
  let ellipsis := ['.', '.', '.']
  (if 0 < shown.start then ellipsis else []) ++ shown.textIn text ++
    (if shown.stop < byteLength text then ellipsis else [])

end Concordance.Scan
