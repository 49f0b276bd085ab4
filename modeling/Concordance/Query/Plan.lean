/-
What a query asks for: terms to search, how they combine, pairs of terms that have to stand close
together, terms whose documents are left out, and warnings about what had to be guessed.
-/
import Concordance.Text.Decimal

namespace Concordance

/-- A search term. A quoted term is an exact phrase; an unquoted one is bare text of one or more words. -/
structure Term where
  text : String
  quoted : Bool
deriving DecidableEq, Repr, Inhabited

/-- A term as a query spells it. -/
def Term.spelling (t : Term) : String := if t.quoted then "\"" ++ t.text ++ "\"" else t.text

inductive Combinator where
  | single
  | and
  | or
deriving DecidableEq, Repr, Inhabited

/-- Two terms with at most `maxWords` words between them, in either order. -/
structure ProximityPair where
  first : Term
  second : Term
  maxWords : UInt32
deriving DecidableEq, Repr, Inhabited

/-- Something that reading a query had to guess about. -/
inductive Warning where
  | unterminatedQuote
  | mixedConnectives
  | danglingNear (distance : UInt32)
  | leadingNot
deriving DecidableEq, Repr, Inhabited

namespace Warning

def message : Warning → String
  | unterminatedQuote => "unterminated quote ignored"
  | mixedConnectives => "query mixes AND and OR; evaluated as AND"
  | danglingNear d => "NEAR/" ++ Text.decimalText d.toNat ++ " is missing an operand; treated as a word"
  | leadingNot => "query starts with NOT; nothing is left to search"

/-- May the query mean something else than how it was read? -/
def isAmbiguous : Warning → Bool
  | leadingNot => false
  | _ => true

end Warning

structure Plan where
  primary : List Term
  combinator : Combinator
  proximity : List ProximityPair
  exclusions : List Term
  warnings : List Warning
deriving DecidableEq, Repr, Inhabited

/-- A plan that searches for nothing; exclusions only take away. -/
def Plan.isEmpty (p : Plan) : Bool := p.primary.isEmpty && p.proximity.isEmpty

end Concordance
