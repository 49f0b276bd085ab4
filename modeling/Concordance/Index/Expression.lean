/-
Match expressions of the index, and how terms are written as them. Only words of letters, digits,
underscores and characters beyond ASCII are written as they are; all else goes between quotes, so that
nothing that a user types is read as an operator.
-/
import Concordance.Query.Plan
import Concordance.Text.Alphanumeric
import Concordance.Text.Blank

namespace Concordance.Index

open Text

/-- A character of a bare word. -/
def isBareChar (c : Char) : Bool := c.isAlphanum || c = '_' || 128 ≤ c.toNat

/-- The words that are operators where they stand bare. -/
def operators : List (List Char) := [['A', 'N', 'D'], ['O', 'R'], ['N', 'O', 'T'], ['N', 'E', 'A', 'R']]

/-- May a word stand without quotes? -/
def isBareWord (s : List Char) : Bool := !s.isEmpty && s.all isBareChar && !operators.contains s

/-- A text between quotes, its own quotes doubled. -/
def quoted (s : List Char) : List Char :=
  ['"'] ++ s.flatMap (fun c => if c = '"' then ['"', '"'] else [c]) ++ ['"']

def word (s : List Char) : List Char := if isBareWord s then s else quoted s

/-! ## Terms -/

/-- The expression of a term: a quoted term is one string, and a bare one is its words side by side. -/
def termExpr (t : Term) : List Char :=
  if t.quoted then quoted t.text.toList else joinWith [' '] ((words t.text.toList).map word)

/-- The expressions of terms that have one. -/
def termExprs (terms : List Term) : List (List Char) := (terms.map termExpr).filter (!·.isEmpty)

/-- All terms. -/
def allExpr (terms : List Term) : List Char := joinWith [' '] (termExprs terms)

/-- Some term. -/
def anyExpr (terms : List Term) : List Char :=
  joinWith [' ', 'O', 'R', ' '] <|
    (termExprs terms).map fun e => if e.contains ' ' then ['('] ++ e ++ [')'] else e

/-- An operand of NEAR, which has to be one string. -/
def operandExpr (t : Term) : List Char :=
  if t.quoted || 1 < (words t.text.toList).length then quoted t.text.toList else word (trim t.text.toList)

/-- Two terms with at most `maxWords` tokens between them. -/
def nearExpr (first second : Term) (maxWords : UInt32) : List Char :=
  ['N', 'E', 'A', 'R', '('] ++ operandExpr first ++ [' '] ++ operandExpr second ++ [',', ' '] ++
    decimal maxWords.toNat ++ [')']

/-! ## A last resort -/

/-- A character that stays when an expression is reduced to its words. -/
def isPlainChar (c : Char) : Bool := isAlphanumeric c || c = '_' || c = '"' || isBlank c

/--
What an expression that cannot be read is reduced to: its words, with the quotes if they pair up, and
single spaces between them.
-/
def sanitize (e : List Char) : List Char :=
  let kept := e.map fun c => if isPlainChar c then c else ' '
  squeeze (if kept.count '"' % 2 = 1 then kept.map fun c => if c = '"' then ' ' else c else kept)

end Concordance.Index
