/-
Page tables. A scanned document's text runs over its pages with a form feed between two of them; its page
table lists, in characters, where each page starts. A table says which page a position is on.
-/
import Concordance.Text.Blank
import Concordance.Text.Decimal

namespace Concordance.Page

open Text

def pageBreak : Char := '\x0c'

/-! ## Looking a position up -/

/--
Halves a range of `size` entries from `base` on that starts with those satisfying `p` until one is left:
the number of entries before the first that fails `p`, if `p` never holds again after it failed.
-/
def bisect (p : Nat → Bool) (base size : Nat) : Nat :=
  if size ≤ 1 then if p base then base + 1 else base
  else
    let half := size / 2
    bisect p (if p (base + half) then base + half else base) (size - half)
termination_by size
decreasing_by omega

/-- How many pages of a rising table start at or before a position. -/
def startedPages (offsets : List Nat) (position : Nat) : Nat :=
  if offsets.isEmpty then 0
  else bisect (fun i => offsets.getD i 0 ≤ position) 0 offsets.length

/--
The page that holds a position, counted from 1. There is always one: a position before all starts is on
page 1, and no page lies beyond the stated number of pages, or if none is stated beyond the table. It is a
number of 32 bits, as page numbers are where they are stored, unless no number of pages is stated and the
table itself has 2 ^ 32 entries or more.
-/
def pageAt (offsets : List Nat) (position : Nat) (pages : UInt32) : Nat :=
  let last := max (if 0 < pages then pages.toNat else offsets.length) 1 - 1
  min (startedPages offsets position - 1) last + 1

/-! ## Making and checking tables -/

/-- Where pages of these texts start, with one character between two of them. -/
def startsFrom (start : Nat) : List (List Char) → List Nat
  | [] => []
  | page :: rest => start :: startsFrom (start + page.length + 1) rest

/-- The page table of a text whose pages are separated by form feeds. -/
def deriveOffsets (text : List Char) : List Nat := startsFrom 0 (pieces (· == pageBreak) text)

/-- What is wrong with a page table. -/
inductive OffsetFault where
  | notZeroBased (first : Nat)
  | decreasing (index previous current : Nat)
  | pastEnd (offset textLength : Nat)
deriving DecidableEq, Repr, Inhabited

def OffsetFault.message : OffsetFault → String
  | notZeroBased first => "first page offset is " ++ decimalText first ++ ", expected 0"
  | decreasing index previous current =>
    "page offset " ++ decimalText index ++ " decreases (" ++ decimalText previous ++ " -> " ++
      decimalText current ++ ")"
  | pastEnd offset textLength =>
    "page offsets start past the end of the text (" ++ decimalText offset ++ " > " ++
      decimalText textLength ++ ")"

/-- The first entry, with its index, that is below the one before it; `index` is that of the second entry. -/
def firstDecrease? (index : Nat) : List Nat → Option OffsetFault
  | previous :: current :: rest =>
    if current < previous then some (.decreasing index previous current)
    else firstDecrease? (index + 1) (current :: rest)
  | _ => none

/--
The first fault of a page table for a text of `textLength` characters. A start one past the end is no
fault: it belongs to a last page that lost its trailing text.
-/
def fault? (offsets : List Nat) (textLength : Nat) : Option OffsetFault :=
  let first := (offsets.head?.filter (· ≠ 0)).map OffsetFault.notZeroBased
  let last := (offsets.getLast?.filter (textLength + 1 < ·)).map fun o => OffsetFault.pastEnd o textLength
  first <|> firstDecrease? 1 offsets <|> last

end Concordance.Page
