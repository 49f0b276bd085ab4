/-
The tokens of a text: runs of token characters, with combining diacritics inside them. The index compares
tokens by their terms, which are folded and stemmed.
-/
import Concordance.Index.Fold
import Concordance.Index.Stem

namespace Concordance.Index

/-- A token: its term, and the characters of the text before its start and before its end. -/
structure Token where
  term : Word
  start : Nat
  stop : Nat
deriving DecidableEq, Repr, Inhabited

/-- The token of a run with these folded characters. -/
def Token.ofRun (start stop : Nat) (folded : List Char) : Token := ⟨stem (Word.ofChars folded), start, stop⟩

/--
The tokens of a text behind `position` characters. `run` is the token being read, if there is one: where it
started, and its folded characters.
-/
def tokensFrom (position : Nat) (run : Option (Nat × List Char)) : List Char → List Token
  | [] => (run.map fun (start, folded) => Token.ofRun start position folded).toList
  | c :: rest =>
    match run with
    | none =>
      tokensFrom (position + 1) (if isTokenChar c then some (position, foldChar c) else none) rest
    | some (start, folded) =>
      if isTokenChar c || isDiacritic c then tokensFrom (position + 1) (some (start, folded ++ foldChar c)) rest
      else Token.ofRun start position folded :: tokensFrom (position + 1) none rest

def tokens (text : List Char) : List Token := tokensFrom 0 none text

/-- The terms of a text, in sequence. -/
def terms (text : List Char) : List Word := (tokens text).map (·.term)

end Concordance.Index
