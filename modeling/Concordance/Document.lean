/-
Documents of a corpus and the hits that a search reports for them.
-/
import Concordance.Page

namespace Concordance

/-- A scanned document. Its page table is missing if its page layout is not known. -/
structure Document where
  id : UInt32
  dataset : UInt32
  filename : String
  filepath : String
  pages : UInt32
  text : String
  pageOffsets : Option (List Nat)
deriving DecidableEq, Repr, Inhabited

/-- The page that holds a position of a text with this page table, if the table has entries. -/
def citedPage? (offsets : Option (List Nat)) (position : Nat) (pages : UInt32) : Option Nat :=
  (offsets.filter (!·.isEmpty)).map (Page.pageAt · position pages)

/-- The page that holds the character at `position`, if the page layout is known. -/
def Document.pageAt? (d : Document) (position : Nat) : Option Nat := citedPage? d.pageOffsets position d.pages

/-- One match: where it starts in characters, the text around it, what matched, and its page if known. -/
structure Context where
  position : Nat
  excerpt : String
  matched : String
  page : Option Nat
deriving DecidableEq, Repr, Inhabited

/-- A document found, with the number of its matches and some of them. -/
structure Hit where
  dataset : UInt32
  filename : String
  filepath : String
  pages : UInt32
  matchCount : Nat
  contexts : List Context
deriving DecidableEq, Repr, Inhabited

/-- A hit for a document. -/
def Document.hit (d : Document) (matchCount : Nat) (contexts : List Context) : Hit :=
  ⟨d.dataset, d.filename, d.filepath, d.pages, matchCount, contexts⟩

/-- Adds the matches of another hit; the document stays. -/
def Hit.absorb (h other : Hit) : Hit :=
  { h with matchCount := h.matchCount + other.matchCount, contexts := h.contexts ++ other.contexts }

/-- What the members of a list count together. -/
def totalOf {α : Type} (count : α → Nat) : List α → Nat
  | [] => 0
  | a :: rest => count a + totalOf count rest

structure Stats where
  documents : Nat
  pages : Nat
deriving DecidableEq, Repr, Inhabited

end Concordance
