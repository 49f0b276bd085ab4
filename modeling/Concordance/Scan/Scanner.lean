/-
Searching by reading: every document's text is scanned for the terms. Documents come in the order of the
corpus, and each match is reported with its place, its page and the text around it. A term may be of any
length: where terms are compiled to automata, one whose automaton outgrows the compiler's limit (10 MiB) is refused
with an error of its own, but here nothing is compiled, and such a term is searched for like any other.
-/
import Concordance.Merge
import Concordance.Query.Plan
import Concordance.Scan.Pattern

namespace Concordance

open Text Scan

/-- Documents to scan, and how to scan them. -/
structure Scanner where
  documents : List Document
  options : Scan.Options
deriving DecidableEq, Repr, Inhabited

namespace Scanner

def pattern (s : Scanner) (t : Term) (wholeWord : Bool) : Pattern :=
  ⟨t.text.toList, s.options.caseSensitive, wholeWord⟩

/-- The contexts of spans, each with what is said to have matched there. -/
def contexts (d : Document) (radius : Nat) (found : List (Span × String)) : List Context :=
  let text := d.text.toList
  let positions := (Cursor.start text).charOffsets (found.map fun m => m.1.start)
  List.zipWith
    (fun (span, matched) position =>
      ⟨position, String.ofList (excerpt text span radius), matched, d.pageAt? position⟩)
    found positions

/-- The hit with the given matches in a document, if there are any. -/
def hit? (s : Scanner) (d : Document) (found : List (Span × String)) : Option Hit :=
  if found.isEmpty then none
  else some (d.hit found.length (contexts d s.options.contextChars found))

/-! ## Terms -/

/-- The hit for a pattern in a document. -/
def find? (s : Scanner) (p : Pattern) (d : Document) : Option Hit :=
  let text := d.text.toList
  s.hit? d ((p.spans text).map fun span => (span, String.ofList (span.textIn text)))

/-- The documents that hold a term. -/
def search (s : Scanner) (t : Term) : List Hit :=
  s.documents.filterMap (s.find? (s.pattern t s.options.wholeWord))

/--
Searches for one term after the other as long as files remain that hold all terms so far. Gives what was found for
each, and the files that remain.
-/
def searchWhileAny (s : Scanner) (remaining : List String) : List Term → List (List Hit) × List String
  | [] => ([], remaining)
  | t :: rest =>
    if remaining.isEmpty then ([], remaining)
    else
      let hits := s.search t
      let (others, remaining) := s.searchWhileAny (remaining.filter (hasFile hits)) rest
      (hits :: others, remaining)

/-- The documents that hold some term, merged, or all terms, with the matches of the first. -/
def searchMultiple (s : Scanner) (terms : List Term) (combinator : Combinator) : List Hit :=
  match terms, combinator with
  | [], _ => []
  | terms, .or => (terms.foldl (fun m t => m.addAll (s.search t)) Merger.empty).toList
  | first :: rest, _ =>
    let head := s.search first
    let (others, remaining) := s.searchWhileAny (head.map (·.filename)) rest
    if remaining.isEmpty then [] else intersect head others

/-! ## Pairs of terms -/

/-- The most pairs that a hit lists. -/
def maxPairs : Nat := 50

/-- The text strictly between two spans, if one ends before the other starts. -/
def gap? (text : List Char) (a b : Span) : Option (List Char) :=
  let gap : Span := ⟨min a.stop b.stop, max a.start b.start⟩
  if gap.start < gap.stop then some (gap.textIn text) else none

/-- Are two spans apart with at most `maxWords` words between them? -/
def isClose (text : List Char) (maxWords : Nat) (a b : Span) : Bool :=
  (gap? text a b).any fun gap => (words gap).length ≤ maxWords

/-- The first `n` members that satisfy `p`; no more are looked at than it takes. -/
def takeWhere {α : Type} (p : α → Bool) : Nat → List α → List α
  | 0, _ => []
  | _ + 1, [] => []
  | n + 1, a :: rest => if p a then a :: takeWhere p n rest else takeWhere p (n + 1) rest

/-- The first `n` pairs of spans close together, those of the first `a` before those of the next. -/
def closePairs (close : Span → Span → Bool) (n : Nat) (as bs : List Span) : List (Span × Span) :=
  match as with
  | [] => []
  | a :: rest =>
    let pairs := (takeWhere (close a) n bs).map fun b => (a, b)
    pairs ++ closePairs close (n - pairs.length) rest bs

/-- The span from the start of one of two spans to the end of the other. -/
def hull (a b : Span) : Span := ⟨min a.start b.start, max a.stop b.stop⟩

/-- The hit for two patterns close together in a document, whose matches bear the label. -/
def findPair? (s : Scanner) (p q : Pattern) (maxWords : Nat) (label : String) (d : Document) : Option Hit :=
  let text := d.text.toList
  let pairs := closePairs (isClose text maxWords) maxPairs (p.spans text) (q.spans text)
  s.hit? d (pairs.map fun (a, b) => (hull a b, label))

/-- The documents that hold two terms close together. Either term may be part of a word. -/
def searchProximity (s : Scanner) (first second : Term) (maxWords : UInt32) : List Hit :=
  s.documents.filterMap <|
    s.findPair? (s.pattern first false) (s.pattern second false) maxWords.toNat
      (first.text ++ "..." ++ second.text)

/-! ## Totals -/

def stats (s : Scanner) : Stats := ⟨s.documents.length, totalOf (·.pages.toNat) s.documents⟩

end Scanner

end Concordance
