/-
Searching the index: the rows that match an expression, best first, each with a snippet of its text.
-/
import Concordance.Index.Rank
import Concordance.Index.Row
import Concordance.Index.Snippet

namespace Concordance

open Text

namespace Index

/-- A row with the tokens of its text. -/
structure Entry where
  row : Row
  tokens : List Token
deriving DecidableEq, Repr, Inhabited

def Entry.ofRow (r : Row) : Entry := ⟨r, Index.tokens r.text.toList⟩

def Entry.terms (e : Entry) : List Word := e.tokens.map (·.term)

end Index

/-- An index opened for searching. -/
structure Index where
  entries : List Index.Entry
deriving DecidableEq, Repr, Inhabited

namespace Index

def ofRows (rows : Rows) : Index := ⟨rows.list.map Entry.ofRow⟩

def stats (ix : Index) : Stats := ⟨ix.entries.length, totalOf (·.row.pages.toNat) ix.entries⟩

/-! ## Rows that match -/

/-- A row that matches a query, with the instances of each phrase. -/
structure Found where
  entry : Entry
  instances : List (List Nat)
deriving DecidableEq, Repr, Inhabited

/-- The rows that match a query, in the order of their ids. -/
def found (ix : Index) (q : Query) : List Found :=
  ix.entries.filterMap fun e => (q.match? e.terms).map (Found.mk e)

def totals (ix : Index) : Totals := ⟨ix.entries.length, totalOf (·.tokens.length) ix.entries⟩

/-- How many rows hold a phrase. -/
def holding (ix : Index) (p : Phrase) : Nat :=
  (ix.entries.filter fun e => !(Index.instances p e.terms).isEmpty).length

/-- The rows that match a query, best first. -/
def ranked (ix : Index) (q : Query) : List Found :=
  let rarities := q.phrases.map fun p => Rank.rarity ix.entries.length (ix.holding p)
  Rank.byWeight <|
    (ix.found q).map fun f => (Rank.weight ix.totals rarities f.entry.tokens.length f.instances, f)

/-- What is shown of a row that matches: its snippet without the marks, which count its matches. -/
def Found.hit (f : Found) (q : Query) (label : String) : Hit :=
  let r := f.entry.row
  let marked := snippet r.text.toList f.entry.tokens (q.phrases.map (·.length)) f.instances
  { dataset := r.dataset, filename := r.filename, filepath := r.filepath, pages := r.pages
    matchCount := max (countOf Snippet.openMark marked) 1
    contexts :=
      [{ position := 0
         excerpt := String.ofList (eraseAll Snippet.closeMark (eraseAll Snippet.openMark marked))
         matched := label
         page := none }] }

/-! ## Expressions -/

/-- What an expression asks for. One that cannot be read is reduced to its words, and if need be to nothing. -/
def interpret (expression : List Char) : Query :=
  if expression.isEmpty then .nothing
  else
    match read? expression with
    | some e => .ofExpression e
    | none =>
      match read? (sanitize expression) with
      | some e => .ofExpression e
      | none => .nothing

/-! ## Answers -/

/-- A part of a ranked list, and the length of the whole. -/
structure RankedPage where
  total : Nat
  hits : List Hit
deriving DecidableEq, Repr, Inhabited

/-- Which part of a list is shown: at most so many of its members, behind so many others. -/
structure Limits where
  limit : Nat
  offset : Nat
deriving DecidableEq, Repr, Inhabited

/-- A number of 64 bits that counts as negative, which sets no limit and skips nothing. -/
def isNegative (n : Nat) : Bool := UInt64.size ≤ 2 * n

def Limits.cut {α : Type} (l : Limits) (list : List α) : List α :=
  let rest := list.drop (if isNegative l.offset then 0 else l.offset)
  if isNegative l.limit then rest else rest.take l.limit

/-- What is asked for of the rows that match: those of one dataset if one is given, and of these a part. -/
structure Scope where
  dataset : Option UInt32
  limits : Option Limits
deriving DecidableEq, Repr, Inhabited

/-- Asks for all rows that match. -/
def Scope.all : Scope := ⟨none, none⟩

/-- The rows of a list that are in the dataset of a scope. -/
def Scope.within (s : Scope) (list : List Found) : List Found :=
  match s.dataset with
  | none => list
  | some d => list.filter (·.entry.row.dataset = d)

/-- How many rows match a query in a scope, whatever part of them is shown. -/
def count (ix : Index) (q : Query) (s : Scope) : Nat := (s.within (ix.found q)).length

/--
The rows that match a query in a scope, best first, as hits whose contexts bear the label. The rows are counted
before a part of them is fetched, which is not done if there are none; if all are fetched, they need no count.
-/
def fetch (ix : Index) (q : Query) (label : String) (s : Scope) : RankedPage :=
  let best := s.within (ix.ranked q)
  match s.limits with
  | none => ⟨best.length, best.map fun f => f.hit q label⟩
  | some l =>
    let total := ix.count q s
    if total = 0 then ⟨0, []⟩ else ⟨total, (l.cut best).map fun f => f.hit q label⟩

/-- The answer to an expression in a scope. -/
def answer (ix : Index) (expression : List Char) (label : String) (s : Scope) : RankedPage :=
  ix.fetch (interpret expression) label s

/-- All hits for an expression, best first, whose contexts bear the label. -/
def run (ix : Index) (expression : List Char) (label : String) : List Hit := (ix.answer expression label .all).hits

theorem run_eq (ix : Index) (expression : List Char) (label : String) :
    ix.run expression label = (ix.ranked (interpret expression)).map fun f => f.hit (interpret expression) label := rfl

/-! ## Searches -/

/-- The documents that hold a term. -/
def search (ix : Index) (t : Term) : List Hit := ix.run (termExpr t) t.text

/-- The labels of several terms joined by what combines them. -/
def joinLabels (separator : String) (terms : List Term) : String :=
  String.ofList (joinWith separator.toList (terms.map (·.text.toList)))

/-- The documents that hold some term, or all terms. -/
def searchMultiple (ix : Index) (terms : List Term) : Combinator → List Hit
  | .or => ix.run (anyExpr terms) (joinLabels " OR " terms)
  | _ => ix.run (allExpr terms) (joinLabels " AND " terms)

/-- The documents that hold two terms close together. -/
def searchProximity (ix : Index) (first second : Term) (maxWords : UInt32) : List Hit :=
  ix.run (nearExpr first second maxWords) (first.text ++ "..." ++ second.text)

/-- At most `limit` of the documents that hold a term, of one dataset if one is given, from `offset` on. -/
def searchPage (ix : Index) (t : Term) (dataset : Option UInt32) (limit offset : Nat) : RankedPage :=
  ix.answer (termExpr t) t.text ⟨dataset, some ⟨limit, offset⟩⟩

end Index

end Concordance
