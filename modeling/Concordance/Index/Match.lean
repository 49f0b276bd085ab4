/-
Which rows match an expression, and where. A phrase is a sequence of terms, and an instance of it is the
place, counted in tokens, where the sequence stands in a row. Phrases whose text has no tokens are dropped
from what stands side by side, and alone match nothing.
-/
import Concordance.Index.Reader
import Concordance.Index.Token

namespace Concordance.Index

/-- A sequence of one term or more. -/
abbrev Phrase := List Word

/-- The places of a phrase in a text of these terms, of which `position` come before. -/
def instancesFrom (p : Phrase) (position : Nat) : List Word → List Nat
  | [] => []
  | w :: rest =>
    if p.isPrefixOf (w :: rest) then position :: instancesFrom p (position + 1) rest
    else instancesFrom p (position + 1) rest

def instances (p : Phrase) (text : List Word) : List Nat := instancesFrom p 0 text

/-! ## Phrases close together -/

/-- All ways to take one member of each list. -/
def choices {α : Type} : List (List α) → List (List α)
  | [] => [[]]
  | xs :: rest => xs.flatMap fun x => (choices rest).map (x :: ·)

/-- A chosen instance: the terms of its phrase and its place. -/
structure Chosen where
  size : Nat
  place : Nat
deriving DecidableEq, Repr, Inhabited

/-- Does every chosen instance end at most `distance` tokens before the last one starts? -/
def areNear (distance : Nat) (chosen : List Chosen) : Bool :=
  let last := (chosen.map (·.place)).foldl max 0
  chosen.all fun c => last ≤ c.place + c.size + distance

/-- The instances of each phrase that are close to instances of all others. -/
def nearInstances (distance : Nat) (found : List (List Chosen)) : List (List Nat) :=
  found.mapIdx fun i own =>
    (own.filter fun c => (choices (found.eraseIdx i)).any fun others => areNear distance (c :: others)).map
      (·.place)

/-! ## Queries -/

/-- An expression with the terms of its phrases. -/
inductive Query where
  | nothing
  | group (phrases : List Phrase) (distance : Nat)
  | all (parts : List Query)
  | and (left right : Query)
  | or (left right : Query)
  | not (left right : Query)
deriving Inhabited

/-- The group of phrases, those without terms left out; a group of none matches nothing. -/
def Query.ofTexts (texts : List (List Char)) (distance : Nat) : Query :=
  match (texts.map terms).filter (!·.isEmpty) with
  | [] => nothing
  | phrases => group phrases distance

def Query.isNothing : Query → Bool
  | nothing => true
  | _ => false

mutual

/-- The query that an expression states. -/
def Query.ofExpression : Expression → Query
  | .phrase text => .ofTexts [text] 0
  | .near texts distance => .ofTexts texts distance
  | .all parts =>
    match (Query.ofExpressions parts).filter (!·.isNothing) with
    | [] => .nothing
    | parts => .all parts
  | .and left right => .and (Query.ofExpression left) (Query.ofExpression right)
  | .or left right => .or (Query.ofExpression left) (Query.ofExpression right)
  | .not left right => .not (Query.ofExpression left) (Query.ofExpression right)

def Query.ofExpressions : List Expression → List Query
  | [] => []
  | e :: rest => Query.ofExpression e :: Query.ofExpressions rest

end

namespace Query

mutual

/-- The phrases of a query from left to right. -/
def phrases : Query → List Phrase
  | nothing => []
  | group phrases _ => phrases
  | all parts => phrasesOfAll parts
  | and left right => left.phrases ++ right.phrases
  | or left right => left.phrases ++ right.phrases
  | not left right => left.phrases ++ right.phrases

def phrasesOfAll : List Query → List Phrase
  | [] => []
  | part :: rest => part.phrases ++ phrasesOfAll rest

end

/-- No instance of any phrase of the query. -/
def noInstances (q : Query) : List (List Nat) := q.phrases.map fun _ => []

/-- The instances of the phrases in a text, if each phrase has some close enough to the others. -/
def matchGroup? (phrases : List Phrase) (distance : Nat) (text : List Word) : Option (List (List Nat)) :=
  let found := phrases.map fun p => (instances p text).map (Chosen.mk p.length)
  let kept := if phrases.length = 1 then found.map (·.map (·.place)) else nearInstances distance found
  if kept.all (!·.isEmpty) then some kept else none

mutual

/--
For a text that matches the query, the instances of each phrase that take part: those of the alternatives
that match.
-/
def match? (q : Query) (text : List Word) : Option (List (List Nat)) :=
  match q with
  | nothing => none
  | group phrases distance => matchGroup? phrases distance text
  | all parts => matchAll? parts text
  | and left right =>
    match left.match? text, right.match? text with
    | some a, some b => some (a ++ b)
    | _, _ => none
  | or left right =>
    match left.match? text, right.match? text with
    | some a, some b => some (a ++ b)
    | some a, none => some (a ++ right.noInstances)
    | none, some b => some (left.noInstances ++ b)
    | none, none => none
  | not left right =>
    match left.match? text, right.match? text with
    | some a, none => some (a ++ right.noInstances)
    | _, _ => none

def matchAll? (parts : List Query) (text : List Word) : Option (List (List Nat)) :=
  match parts with
  | [] => some []
  | part :: rest =>
    match part.match? text, matchAll? rest text with
    | some a, some b => some (a ++ b)
    | _, _ => none

end

end Query

end Concordance.Index
