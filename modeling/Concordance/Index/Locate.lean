/-
Where a snippet stands in its document. A snippet is found as the first place where its text occurs, and
points to the first word of its label inside that, so that it can be cited with a position and a page.
-/
import Concordance.Index.Search
import Concordance.Scan.Pattern

namespace Concordance.Index

open Text

/-- The text of a snippet without the marks of what was left out and without blanks at the ends. -/
def snippetBody (excerpt : List Char) : List Char :=
  trim (dropSuffix Snippet.ellipsis (dropPrefix Snippet.ellipsis excerpt))

/-- The first run of letters and numbers in a label, if there is any. -/
def anchorWord? (label : List Char) : Option (List Char) :=
  (pieces (fun c => !isAlphanumeric c) label).find? (!·.isEmpty)

/-- The byte of a text at which the label's first word stands, whatever its case; the start if it is not there. -/
def anchorByte (label s : List Char) : Nat :=
  ((anchorWord? label).bind fun word => (Scan.Pattern.first? ⟨word, false, false⟩ s).map (·.start)).getD 0

/-- The position in a text that a snippet points to, if the text holds the snippet. -/
def locate? (text : List Char) (c : Context) : Option Nat :=
  let body := snippetBody c.excerpt.toList
  if body.isEmpty then none
  else
    (Scan.Pattern.first? ⟨body, true, false⟩ text).map fun found =>
      (Scan.takeBytes (found.start + anchorByte c.matched.toList (found.textIn text)) text).length

/-- The row that a filename is looked up in: the first one. -/
def rowOf? (ix : Index) (filename : String) : Option Row :=
  (ix.entries.map (·.row)).find? (·.filename = filename)

/-- Sets the position and the page of a context without a page, as far as they can be found. -/
def locateContext (r : Row) (pages : UInt32) (c : Context) : Context :=
  if c.page.isSome then c
  else
    match locate? r.text.toList c with
    | some position => { c with position, page := citedPage? r.offsets? position pages }
    | none => c

/-- Has every context of a hit a page? -/
def isLocated (h : Hit) : Bool := h.contexts.all (·.page.isSome)

/-- Finds the positions and pages of a hit's contexts without a page. If all have one, no row is looked up. -/
def locateHit (ix : Index) (h : Hit) : Hit :=
  if isLocated h then h
  else
    match ix.rowOf? h.filename with
    | some r => { h with contexts := h.contexts.map (locateContext r h.pages) }
    | none => h

/-- Finds the positions and pages of contexts that have no page yet, if there are any. -/
def locate (ix : Index) (hits : List Hit) : List Hit :=
  if hits.all isLocated then hits else hits.map ix.locateHit

end Concordance.Index
