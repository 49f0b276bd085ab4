/-
Marking the words of a match in its context. The words are looked for together from the left, whatever
their case; where several stand, the one that comes first in the label is marked.
-/
import Concordance.Scan.Pattern
import Concordance.Text.Blank

namespace Concordance.Output

open Text

/-- A character between the words of a label. -/
def isLabelGap (c : Char) : Bool := isBlank c || c = '"' || c = '.'

/-- The words of a label that are marked: not the operators that join terms. -/
def labelWords (label : List Char) : List (List Char) :=
  (pieces isLabelGap label).filter fun w => !w.isEmpty && w != ['A', 'N', 'D'] && w != ['O', 'R']

/-- The number of characters of the first of the words that stands in front of a text. -/
def wordAt? (words : List (List Char)) (s : List Char) : Option Nat :=
  (words.find? fun w => Scan.Pattern.startsWith ⟨w, false, false⟩ w s).map List.length

/--
A text with its words between the marks. `marking` more characters belong to a word, behind which the
closing mark goes.
-/
def markFrom (words : List (List Char)) (opening closing : List Char) : Nat → List Char → List Char
  | _, [] => []
  | marking + 2, c :: rest => c :: markFrom words opening closing (marking + 1) rest
  | 1, c :: rest => c :: closing ++ markFrom words opening closing 0 rest
  | 0, c :: rest =>
    match wordAt? words (c :: rest) with
    | some (n + 2) => opening ++ c :: markFrom words opening closing (n + 1) rest
    | some _ => opening ++ c :: closing ++ markFrom words opening closing 0 rest
    | none => c :: markFrom words opening closing 0 rest

/-- A context with the words of its label between marks. -/
def mark (context label opening closing : String) : String :=
  String.ofList (markFrom (labelWords label.toList) opening.toList closing.toList 0 context.toList)

end Concordance.Output
