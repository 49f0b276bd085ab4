/-
The tokens of a query. Phrases between quotes are cut out first, so a keyword in quotes is text; what is
left falls into words at the blanks, and a word that spells a keyword in any ASCII case is one. A last
quote without a partner is dropped, and the text behind it is read as if the quote were not there.
-/
import Concordance.Query.Plan
import Concordance.Text.Blank
import Concordance.Text.Find

namespace Concordance.Query

open Text

/-- A token with the text that it was spelled with, for a phrase without its quotes. -/
inductive Token where
  | word (text : String)
  | phrase (text : String)
  | and (text : String)
  | or (text : String)
  | not (text : String)
  | near (distance : UInt32) (text : String)
deriving DecidableEq, Repr, Inhabited

namespace Token

def text : Token → String
  | word s | phrase s | and s | or s | not s | near _ s => s

/-- A word or a phrase, which NEAR can join. -/
def isOperand : Token → Bool
  | word _ | phrase _ => true
  | _ => false

def isAnd : Token → Bool
  | and _ => true
  | _ => false

def isOr : Token → Bool
  | or _ => true
  | _ => false

def isNot : Token → Bool
  | not _ => true
  | _ => false

/-- The term that a single token stands for: a phrase is quoted, and any other token is its spelling. -/
def term : Token → Term
  | phrase s => ⟨s, true⟩
  | t => ⟨t.text, false⟩

/-! ## Keywords -/

def lower (s : List Char) : List Char := s.map Char.toLower

/-- The distance that `NEAR/` and digits spell. A number that does not fit a distance spells none. -/
def nearDistance? (s : List Char) : Option UInt32 :=
  if lower (s.take 5) = ['n', 'e', 'a', 'r', '/'] then
    (readBelow? UInt32.size (s.drop 5)).map UInt32.ofNat
  else none

def classify (s : List Char) : Token :=
  let spelled := String.ofList s
  if lower s = ['a', 'n', 'd'] then and spelled
  else if lower s = ['o', 'r'] then or spelled
  else if lower s = ['n', 'o', 't'] then not spelled
  else
    match nearDistance? s with
    | some d => near d spelled
    | none => word spelled

end Token

/-! ## Cutting a query into tokens -/

/-- The tokens of a query, and whether its last quote had no partner. -/
structure Tokens where
  list : List Token
  unterminatedQuote : Bool
deriving DecidableEq, Repr, Inhabited

def Tokens.cons (t : Token) (ts : Tokens) : Tokens := { ts with list := t :: ts.list }

/-- The phrase between two quotes, unless it is blank. -/
def Tokens.consPhrase (body : List Char) (ts : Tokens) : Tokens :=
  if body.all isBlank then ts else ts.cons (.phrase (String.ofList body))

/-- A character that belongs to a word: neither a blank nor a quote. -/
def inWord (c : Char) : Bool := !isBlank c && c != '"'

theorem length_dropWhile_le {α : Type} (p : α → Bool) (s : List α) : (s.dropWhile p).length ≤ s.length :=
  (List.dropWhile_suffix p).length_le

theorem length_of_cutAt? {p : Char → Bool} {s before after : List Char}
    (h : cutAt? p s = some (before, after)) : after.length < s.length := by
  induction s generalizing before after with
  | nil => simp [cutAt?] at h
  | cons c rest ih =>
    simp only [cutAt?] at h
    split at h
    · cases h; simp
    · obtain ⟨⟨b, a⟩, hcut, heq⟩ := Option.map_eq_some_iff.1 h
      cases heq
      exact Nat.lt_succ_of_lt (ih hcut)

/-- Cuts a query into tokens. -/
def tokenize (s : List Char) : Tokens :=
  match s with
  | [] => ⟨[], false⟩
  | c :: rest =>
    if isBlank c then tokenize rest
    else if c = '"' then
      match _h : cutAt? (· == '"') rest with
      | some (body, after) => (tokenize after).consPhrase body
      | none => { tokenize rest with unterminatedQuote := true }
    else (tokenize (rest.dropWhile inWord)).cons (Token.classify (c :: rest.takeWhile inWord))
termination_by s.length
decreasing_by
  · simp
  · have := length_of_cutAt? _h
    simp only [List.length_cons]
    omega
  · simp
  · have := length_dropWhile_le inWord rest
    simp only [List.length_cons]
    omega

end Concordance.Query
