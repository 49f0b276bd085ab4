/-
Finding a literal text: occurrences from the left that do not overlap, with or without regard to case, and
if so wished only between word boundaries. A text without characters occurs between any two characters.
-/
import Concordance.Scan.Cursor
import Concordance.Text.CaseFold
import Concordance.Text.WordChar

namespace Concordance.Scan

open Text

/-- How to scan: whether case matters, whether matches are whole words, and the characters of context. -/
structure Options where
  caseSensitive : Bool
  wholeWord : Bool
  contextChars : Nat
deriving DecidableEq, Repr, Inhabited

/-- A literal text to find. -/
structure Pattern where
  letters : List Char
  caseSensitive : Bool
  wholeWord : Bool
deriving DecidableEq, Repr, Inhabited

namespace Pattern

/-- The form of a character in which letters are compared. -/
def form (p : Pattern) (c : Char) : Char := if p.caseSensitive then c else foldCase c

/-- Does a text start with these letters, up to case if case does not matter? -/
def startsWith (p : Pattern) : List Char → List Char → Bool
  | [], _ => true
  | _ :: _, [] => false
  | a :: letters, c :: rest => p.form a == p.form c && startsWith p letters rest

/-- Is there a word boundary on both sides of the first `length` characters, behind the character `before`? -/
def betweenBoundaries (before : Option Char) (length : Nat) (s : List Char) : Bool :=
  isBoundary before s.head? &&
    isBoundary (if length = 0 then before else s[length - 1]?) (s.drop length).head?

/-- Does the pattern occur in front of `s`, behind the character `before`? -/
def occursAt (p : Pattern) (before : Option Char) (s : List Char) : Bool :=
  p.startsWith p.letters s && (!p.wholeWord || betweenBoundaries before p.letters.length s)

/--
The occurrences in `s`, which lies behind `bytes` bytes, the last of them the character `before`. The first
`skip` characters belong to an occurrence already found.
-/
def spansFrom (p : Pattern) (before : Option Char) (bytes skip : Nat) : List Char → List Span
  | [] => if skip = 0 && p.occursAt before [] then [⟨bytes, bytes⟩] else []
  | c :: rest =>
    if skip = 0 && p.occursAt before (c :: rest) then
      ⟨bytes, bytes + byteLength ((c :: rest).take p.letters.length)⟩ ::
        spansFrom p (some c) (bytes + c.utf8Size) (p.letters.length - 1) rest
    else spansFrom p (some c) (bytes + c.utf8Size) (skip - 1) rest

/-- The occurrences in a text. -/
def spans (p : Pattern) (text : List Char) : List Span := p.spansFrom none 0 0 text

/-- The first occurrence in a text. -/
def first? (p : Pattern) (text : List Char) : Option Span := (p.spans text).head?

end Pattern

end Concordance.Scan
