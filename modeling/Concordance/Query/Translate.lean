/-
From tokens to a plan. Phrases bind tightest, being single tokens already; then NEAR, NOT, and the
connectives, each of which takes what it owns and leaves the rest. There is no grouping, and every text
is a query: what cannot be read as meant is repaired and reported.
-/
import Concordance.Query.Token

namespace Concordance.Query

open Text

/-! ## NEAR -/

/-- What NEAR leaves: the tokens that no pair used, the pairs, and the distances of NEARs without one. -/
structure Extraction where
  stream : List Token
  pairs : List ProximityPair
  dangling : List UInt32
deriving DecidableEq, Repr, Inhabited

def Extraction.addPair (p : ProximityPair) (e : Extraction) : Extraction := { e with pairs := p :: e.pairs }

def Extraction.addDangling (d : UInt32) (e : Extraction) : Extraction :=
  { e with dangling := d :: e.dangling }

/--
The left operand of a NEAR, and the tokens before it that stay. `chained` is the right operand of a pair
that ends where the NEAR stands, which the NEAR shares; else the operand is the last token.
-/
def leftOperand? (chained : Option Term) (before : List Token) : Option (Term × List Token) :=
  match chained, before with
  | some first, _ => some (first, before)
  | none, last :: earlier => if last.isOperand then some (last.term, earlier) else none
  | none, [] => none

/--
Takes the pairs `operand NEAR/n operand` out of the tokens. `before` holds the tokens that stay so far,
nearest first. A NEAR without two operands is a word of its own spelling.
-/
def extract (before : List Token) (chained : Option Term) : List Token → Extraction
  | .near d s :: right :: rest =>
    if right.isOperand then
      match leftOperand? chained before with
      | some (first, before') => (extract before' (some right.term) rest).addPair ⟨first, right.term, d⟩
      | none => (extract (right :: .word s :: before) none rest).addDangling d
    else (extract (.word s :: before) none (right :: rest)).addDangling d
  | [.near d s] => ⟨(.word s :: before).reverse, [], [d]⟩
  | t :: rest => extract (t :: before) none rest
  | [] => ⟨before.reverse, [], []⟩

/-! ## NOT, AND and OR -/

/-- Joins spellings by single spaces. -/
def spaced (texts : List String) : String :=
  String.ofList (joinWith [' '] (texts.map String.toList))

/-- The term that a run of tokens stands for: a phrase alone stays quoted, and anything else is its words. -/
def runTerm? : List Token → Option Term
  | [] => none
  | [t] => some t.term
  | ts => some ⟨spaced (ts.map Token.text), false⟩

/-- The terms between the tokens that satisfy `separates`. Runs without tokens stand for none. -/
def termsBetween (separates : Token → Bool) (ts : List Token) : List Term :=
  (pieces separates ts).filterMap runTerm?

/-- The terms of the tokens before any NOT, how they combine, and whether both connectives occur. -/
def connect (ts : List Token) : List Term × Combinator × Bool :=
  let hasAnd := ts.any Token.isAnd
  let hasOr := ts.any Token.isOr
  let (terms, combinator) :=
    if hasAnd then (termsBetween Token.isAnd ts, Combinator.and)
    else if hasOr then (termsBetween Token.isOr ts, Combinator.or)
    else ((runTerm? ts).toList, Combinator.single)
  (terms, if terms.length > 1 then combinator else .single, hasAnd && hasOr)

/-- The plan of a token sequence. -/
def planOf (tokens : Tokens) : Plan :=
  let e := extract [] none tokens.list
  let (head, negated) :=
    match pieces Token.isNot e.stream with
    | [] => ([], [])
    | head :: negated => (head, negated)
  let (primary, combinator, mixed) := connect head
  { primary, combinator
    proximity := e.pairs
    exclusions := negated.filterMap runTerm?
    warnings :=
      (if tokens.unterminatedQuote then [.unterminatedQuote] else []) ++
      e.dangling.map .danglingNear ++
      (if e.stream.head?.any Token.isNot then [.leadingNot] else []) ++
      (if mixed then [.mixedConnectives] else []) }

/-! ## Reading a query -/

/-- Reads a query. -/
def translate (raw : String) : Plan := planOf (tokenize raw.toList)

/-- Reads a query, unless some part of it is ambiguous: then the first such warning. -/
def translateStrict (raw : String) : Except Warning Plan :=
  let plan := translate raw
  match plan.warnings.find? Warning.isAmbiguous with
  | some w => .error w
  | none => .ok plan

end Concordance.Query
