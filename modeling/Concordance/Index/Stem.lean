/-
Stemming of English words by Porter's algorithm. A word is a sequence of bytes, of which the vowels are
letters of ASCII and all others count as consonants; what is left of a word has to hold a vowel, or enough
runs of vowels followed by consonants, for a suffix to go. Words under 3 or over 64 bytes stay as they are.
-/
namespace Concordance.Index

/-- A word of the index: its UTF-8 bytes. -/
abbrev Word := List UInt8

def Word.ofChars (s : List Char) : Word := s.flatMap String.utf8EncodeChar

namespace Stem

def bytes (s : String) : Word := Word.ofChars s.toList

/-! ## Measures of a word -/

def isLetter (c : Char) (b : UInt8) : Bool := b.toNat = c.toNat

/-- Is it a vowel? `y` is one when `yIsVowel`. -/
def isVowel (yIsVowel : Bool) (b : UInt8) : Bool :=
  isLetter 'a' b || isLetter 'e' b || isLetter 'i' b || isLetter 'o' b || isLetter 'u' b ||
    (yIsVowel && isLetter 'y' b)

/-- Which bytes are consonants; `y` is a vowel behind a consonant, and `previous` says if one came before. -/
def consonants (previous : Bool) : Word → List Bool
  | [] => []
  | b :: rest =>
    let here := !isVowel previous b
    here :: consonants here rest

/-- The number of places where a consonant follows a vowel. -/
def measureOf : List Bool → Nat
  | false :: true :: rest => measureOf (true :: rest) + 1
  | _ :: rest => measureOf rest
  | [] => 0

def measure (w : Word) : Nat := measureOf (consonants false w)

/-- Does the word hold a vowel? Here `y` counts unless it comes first. -/
def hasVowel : Word → Bool
  | [] => false
  | b :: rest => isVowel false b || rest.any (isVowel true)

/-- Does the word end in consonant, vowel, consonant, the last not `w`, `x` or `y`? -/
def endsShort (w : Word) : Bool :=
  match (consonants false w).reverse, w.getLast? with
  | true :: false :: true :: _, some b => !(isLetter 'w' b || isLetter 'x' b || isLetter 'y' b)
  | _, _ => false

/-! ## Rules -/

/-- A suffix, what replaces it, and when: a condition on the word without the suffix. -/
structure Rule where
  suffix : String
  replacement : String
  condition : Word → Bool

/-- The word without a suffix, if it has the suffix and is longer. -/
def strip? (suffix : String) (w : Word) : Option Word :=
  let s := bytes suffix
  if s.length < w.length && s.isSuffixOf w then some (w.take (w.length - s.length)) else none

/-- Applies the first rule whose suffix fits, and says if the rule's condition held. -/
def applyFirst (rules : List Rule) (w : Word) : Word × Bool :=
  match rules with
  | [] => (w, false)
  | rule :: rest =>
    match strip? rule.suffix w with
    | some stem => if rule.condition stem then (stem ++ bytes rule.replacement, true) else (w, false)
    | none => applyFirst rest w

def positive (w : Word) : Bool := 0 < measure w

def overOne (w : Word) : Bool := 1 < measure w

def rulesWhen (condition : Word → Bool) (pairs : List (String × String)) : List Rule :=
  pairs.map fun (suffix, replacement) => ⟨suffix, replacement, condition⟩

/-! ## Steps -/

/-- Plurals. -/
def step1a (w : Word) : Word :=
  match w.reverse with
  | s :: e :: rest =>
    if isLetter 's' s then
      if isLetter 'e' e then
        match rest with
        | i :: c :: r =>
          if (isLetter 's' i && isLetter 's' c && !r.isEmpty) || isLetter 'i' i then rest.reverse
          else (e :: rest).reverse
        | _ => (e :: rest).reverse
      else if isLetter 's' e then w
      else (e :: rest).reverse
    else w
  | _ => w

/-- What remains when `ed` or `ing` has gone gets its `e` back, or loses the second of two equal letters. -/
def restore (w : Word) : Word :=
  match applyFirst (rulesWhen (fun _ => true) [("at", "ate"), ("bl", "ble"), ("iz", "ize")]) w with
  | (restored, true) => restored
  | (_, false) =>
    match w.reverse with
    | a :: b :: rest =>
      if !isVowel false a && !isLetter 'l' a && !isLetter 's' a && !isLetter 'z' a && a == b then
        (b :: rest).reverse
      else if measure w = 1 && endsShort w then w ++ bytes "e"
      else w
    | _ => w

/-- Past tenses and participles. -/
def step1b (w : Word) : Word :=
  match strip? "eed" w with
  | some stem => if positive stem then stem ++ bytes "ee" else w
  | none =>
    match applyFirst (rulesWhen hasVowel [("ed", ""), ("ing", "")]) w with
    | (stem, true) => restore stem
    | (_, false) => w

def step1c (w : Word) : Word :=
  match strip? "y" w with
  | some stem => if hasVowel stem then stem ++ bytes "i" else w
  | none => w

def step2Rules : List Rule :=
  rulesWhen positive
    [("ational", "ate"), ("tional", "tion"), ("enci", "ence"), ("anci", "ance"), ("izer", "ize"),
     ("logi", "log"), ("bli", "ble"), ("alli", "al"), ("entli", "ent"), ("eli", "e"), ("ousli", "ous"),
     ("ization", "ize"), ("ation", "ate"), ("ator", "ate"), ("alism", "al"), ("iveness", "ive"),
     ("fulness", "ful"), ("ousness", "ous"), ("aliti", "al"), ("iviti", "ive"), ("biliti", "ble")]

def step3Rules : List Rule :=
  rulesWhen positive
    [("ical", "ic"), ("ness", ""), ("icate", "ic"), ("iciti", "ic"), ("ful", ""), ("ative", ""),
     ("alize", "al")]

/-- `ion` goes only behind `s` or `t`. -/
def behindSOrT (w : Word) : Bool :=
  overOne w && w.getLast?.any fun b => isLetter 's' b || isLetter 't' b

def step4Rules : List Rule :=
  rulesWhen overOne
    [("al", ""), ("ance", ""), ("ence", ""), ("er", ""), ("ic", ""), ("able", ""), ("ible", ""),
     ("ant", ""), ("ement", ""), ("ment", ""), ("ent", "")] ++
  [⟨"ion", "", behindSOrT⟩] ++
  rulesWhen overOne
    [("ou", ""), ("ism", ""), ("ate", ""), ("iti", ""), ("ous", ""), ("ive", ""), ("ize", "")]

/-- A last `e`. -/
def step5a (w : Word) : Word :=
  match strip? "e" w with
  | some stem => if overOne stem || (measure stem = 1 && !endsShort stem) then stem else w
  | none => w

/-- A last double `l`. -/
def step5b (w : Word) : Word :=
  match w.reverse with
  | a :: b :: rest =>
    if isLetter 'l' a && isLetter 'l' b && overOne (b :: rest).reverse then (b :: rest).reverse else w
  | _ => w

end Stem

/-- The stem of a word. -/
def stem (w : Word) : Word :=
  if w.length < 3 || 64 < w.length then w
  else
    let w := Stem.step1c (Stem.step1b (Stem.step1a w))
    let w := (Stem.applyFirst Stem.step2Rules w).1
    let w := (Stem.applyFirst Stem.step3Rules w).1
    let w := (Stem.applyFirst Stem.step4Rules w).1
    Stem.step5b (Stem.step5a w)

end Concordance.Index
