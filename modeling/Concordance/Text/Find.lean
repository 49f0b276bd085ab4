/-
Counting and erasing a text inside a text, and cutting a text. Occurrences are taken from the left and do
not overlap.
-/
namespace Concordance.Text

/-- Where some character satisfies `p`, the text before the first one and the text after it. -/
def cutAt? (p : Char → Bool) : List Char → Option (List Char × List Char)
  | [] => none
  | c :: rest =>
    if p c then some ([], rest) else (cutAt? p rest).map fun (before, after) => (c :: before, after)

/-- How often `needle` occurs, after `skip` characters that an occurrence has used up. -/
def countFrom (needle : List Char) : Nat → List Char → Nat
  | _, [] => 0
  | skip + 1, _ :: rest => countFrom needle skip rest
  | 0, c :: rest =>
    if needle.isPrefixOf (c :: rest) then countFrom needle (needle.length - 1) rest + 1
    else countFrom needle 0 rest

/-- How often a text that is not empty occurs. -/
def countOf (needle s : List Char) : Nat := countFrom needle 0 s

/-- The text without the occurrences of `needle`, after `skip` characters that an occurrence has used up. -/
def eraseFrom (needle : List Char) : Nat → List Char → List Char
  | _, [] => []
  | skip + 1, _ :: rest => eraseFrom needle skip rest
  | 0, c :: rest =>
    if needle.isPrefixOf (c :: rest) then eraseFrom needle (needle.length - 1) rest
    else c :: eraseFrom needle 0 rest

/-- The text without the occurrences of a text that is not empty. -/
def eraseAll (needle s : List Char) : List Char := eraseFrom needle 0 s

/-- The text without a leading `start`, if it has one. -/
def dropPrefix (start s : List Char) : List Char := if start.isPrefixOf s then s.drop start.length else s

/-- The text without a trailing `final`, if it has one. -/
def dropSuffix (final s : List Char) : List Char :=
  if final.isSuffixOf s then s.take (s.length - final.length) else s

end Concordance.Text
