/-
Frames of box characters around text, 80 characters wide inside.
-/
namespace Concordance.Output

def boxWidth : Nat := 80

/-- The characters that a terminal shows: escape sequences, which go from ESC to `m`, take no room. -/
def visibleLengthFrom (inEscape : Bool) : List Char → Nat
  | [] => 0
  | c :: rest =>
    if c = '\x1b' then visibleLengthFrom true rest
    else if inEscape then visibleLengthFrom (c ≠ 'm') rest
    else visibleLengthFrom false rest + 1

def visibleLength (s : String) : Nat := visibleLengthFrom false s.toList

/-- A character over and over. -/
def repeated (c : Char) (n : Nat) : String := String.ofList (List.replicate n c)

/-! ## Lines -/

/-- A line of a frame. -/
def row (content : String) : String :=
  "│" ++ content ++ repeated ' ' (boxWidth - visibleLength content) ++ "│"

/-- The first line of a frame, with a label. -/
def sectionTop (label : String) : String :=
  let labelled := "─ " ++ label ++ " "
  "┌" ++ labelled ++ repeated '─' (boxWidth - visibleLength labelled) ++ "┐"

def sectionBottom : String := "└" ++ repeated '─' boxWidth ++ "┘"

/-- A heading between double lines. -/
def heading (text : String) : List String :=
  let room := boxWidth - visibleLength text
  ["╔" ++ repeated '═' boxWidth ++ "╗",
   "║" ++ repeated ' ' (room / 2) ++ text ++ repeated ' ' (room - room / 2) ++ "║",
   "╚" ++ repeated '═' boxWidth ++ "╝"]

/-- A line across the width of a frame. -/
def rule : String := repeated '═' (boxWidth + 2)

end Concordance.Output
