/-
Reading match expressions. A word or a quoted string is a phrase; phrases side by side are all asked for,
which binds tighter than the operators NOT, AND and OR, in this order; `NEAR(p q, n)` asks for phrases close
together; parentheses group whole expressions. A NUL ends an expression.
-/
import Concordance.Index.Expression
import Concordance.Text.Decimal

namespace Concordance.Index

open Text

/-- What an expression asks for. -/
inductive Expression where
  | phrase (text : List Char)
  | near (phrases : List (List Char)) (distance : Nat)
  /-- Phrases and NEAR groups side by side. -/
  | all (parts : List Expression)
  | and (left right : Expression)
  | or (left right : Expression)
  | not (left right : Expression)
deriving Repr, Inhabited

/-! ## Symbols -/

/-- The symbols of an expression. A string is bare or was quoted. -/
inductive Symbol where
  | bare (text : List Char)
  | string (text : List Char)
  | and
  | or
  | not
  | openParen
  | closeParen
  | comma
deriving DecidableEq, Repr, Inhabited

def Symbol.ofWord (s : List Char) : Symbol :=
  if s = ['A', 'N', 'D'] then and
  else if s = ['O', 'R'] then or
  else if s = ['N', 'O', 'T'] then not
  else bare s

/-- The text of a quoted string behind its first quote, and what follows the last one. -/
def quotedBody? : List Char → Option (List Char × List Char)
  | '"' :: '"' :: rest => (quotedBody? rest).map fun (body, rest) => ('"' :: body, rest)
  | '"' :: rest => some ([], rest)
  | '\x00' :: _ => none
  | c :: rest => (quotedBody? rest).map fun (body, rest) => (c :: body, rest)
  | [] => none

theorem length_of_quotedBody? {s body rest : List Char} (h : quotedBody? s = some (body, rest)) :
    rest.length < s.length := by
  fun_induction quotedBody? s generalizing body rest with
  | case1 r ih =>
    obtain ⟨⟨b, a⟩, hr, heq⟩ := Option.map_eq_some_iff.1 h
    cases heq
    have := ih hr
    simp only [List.length_cons]
    omega
  | case2 r _ => cases h; simp
  | case3 => cases h
  | case4 c r _ _ _ ih =>
    obtain ⟨⟨b, a⟩, hr, heq⟩ := Option.map_eq_some_iff.1 h
    cases heq
    exact Nat.lt_succ_of_lt (ih hr)
  | case5 => cases h

/-- The symbols of an expression, unless a string does not end or a character starts no symbol. -/
def symbols? (s : List Char) : Option (List Symbol) :=
  match s with
  | [] => some []
  | c :: rest =>
    if c = '\x00' then some []
    else if c = ' ' || c = '\t' || c = '\n' || c = '\r' then symbols? rest
    else if c = '(' then (symbols? rest).map (.openParen :: ·)
    else if c = ')' then (symbols? rest).map (.closeParen :: ·)
    else if c = ',' then (symbols? rest).map (.comma :: ·)
    else if c = '"' then
      match _h : quotedBody? rest with
      | some (body, rest) => (symbols? rest).map (.string body :: ·)
      | none => none
    else if isBareChar c then
      (symbols? (rest.dropWhile isBareChar)).map (.ofWord (c :: rest.takeWhile isBareChar) :: ·)
    else none
termination_by s.length
decreasing_by
  · simp
  · simp
  · simp
  · simp
  · have := length_of_quotedBody? _h
    simp only [List.length_cons]
    omega
  · have := (List.dropWhile_suffix isBareChar (l := rest)).length_le
    simp only [List.length_cons]
    omega

/-! ## Grammar -/

/-- The phrases in front of the symbols. -/
def takePhrases : List Symbol → List (List Char) × List Symbol
  | .bare s :: rest => let (phrases, rest) := takePhrases rest; (s :: phrases, rest)
  | .string s :: rest => let (phrases, rest) := takePhrases rest; (s :: phrases, rest)
  | rest => ([], rest)

/-- The distance of a NEAR group that states none. -/
def defaultDistance : Nat := 10

/-- The rest of a NEAR group behind its parenthesis. -/
def nearGroup? (s : List Symbol) : Option (Expression × List Symbol) :=
  match takePhrases s with
  | ([], _) => none
  | (phrases, .closeParen :: rest) => some (.near phrases defaultDistance, rest)
  | (phrases, .comma :: .bare n :: .closeParen :: rest) =>
    (readDecimal? n).map fun distance => (.near phrases distance, rest)
  | _ => none

/-- Phrases and NEAR groups side by side, as many as there are. -/
def sideBySide? : Nat → List Symbol → Option (List Expression × List Symbol)
  | 0, _ => none
  | fuel + 1, s =>
    let more (part : Expression) (rest : List Symbol) : Option (List Expression × List Symbol) :=
      (sideBySide? fuel rest).map fun (parts, rest) => (part :: parts, rest)
    match s with
    | .bare w :: .openParen :: rest =>
      if w = ['N', 'E', 'A', 'R'] then (nearGroup? rest).bind fun (part, rest) => more part rest else none
    | .string _ :: .openParen :: _ => none
    | .bare w :: rest => more (.phrase w) rest
    | .string w :: rest => more (.phrase w) rest
    | rest => some ([], rest)

/-- One part alone, or several side by side. -/
def Expression.ofParts : List Expression → Expression
  | [part] => part
  | parts => .all parts

mutual

/-- A group in parentheses, or phrases side by side. -/
def primary? (fuel : Nat) (s : List Symbol) : Option (Expression × List Symbol) :=
  match fuel with
  | 0 => none
  | fuel + 1 =>
    match s with
    | .openParen :: rest =>
      match disjunction? fuel rest with
      | some (e, .closeParen :: rest) => some (e, rest)
      | _ => none
    | s =>
      match sideBySide? (s.length + 1) s with
      | some ([], _) => none
      | some (parts, rest) => some (.ofParts parts, rest)
      | none => none

def negation? (fuel : Nat) (s : List Symbol) : Option (Expression × List Symbol) :=
  match fuel with
  | 0 => none
  | fuel + 1 => do
    let (e, rest) ← primary? fuel s
    negationRest? fuel e rest

def negationRest? (fuel : Nat) (left : Expression) (s : List Symbol) : Option (Expression × List Symbol) :=
  match fuel with
  | 0 => none
  | fuel + 1 =>
    match s with
    | .not :: rest => do
      let (right, rest) ← primary? fuel rest
      negationRest? fuel (.not left right) rest
    | rest => some (left, rest)

def conjunction? (fuel : Nat) (s : List Symbol) : Option (Expression × List Symbol) :=
  match fuel with
  | 0 => none
  | fuel + 1 => do
    let (e, rest) ← negation? fuel s
    conjunctionRest? fuel e rest

def conjunctionRest? (fuel : Nat) (left : Expression) (s : List Symbol) : Option (Expression × List Symbol) :=
  match fuel with
  | 0 => none
  | fuel + 1 =>
    match s with
    | .and :: rest => do
      let (right, rest) ← negation? fuel rest
      conjunctionRest? fuel (.and left right) rest
    | rest => some (left, rest)

def disjunction? (fuel : Nat) (s : List Symbol) : Option (Expression × List Symbol) :=
  match fuel with
  | 0 => none
  | fuel + 1 => do
    let (e, rest) ← conjunction? fuel s
    disjunctionRest? fuel e rest

def disjunctionRest? (fuel : Nat) (left : Expression) (s : List Symbol) : Option (Expression × List Symbol) :=
  match fuel with
  | 0 => none
  | fuel + 1 =>
    match s with
    | .or :: rest => do
      let (right, rest) ← conjunction? fuel rest
      disjunctionRest? fuel (.or left right) rest
    | rest => some (left, rest)

end

/-- Reads a match expression. -/
def read? (s : List Char) : Option Expression := do
  let symbols ← symbols? s
  match ← disjunction? (6 * symbols.length + 6) symbols with
  | (e, []) => some e
  | _ => none

end Concordance.Index
