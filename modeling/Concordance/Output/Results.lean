/-
What the program prints: a page of results, the report of a build, totals, and the greeting of the prompt.
-/
import Concordance.Engine.Request
import Concordance.Index.Build
import Concordance.Output.Box
import Concordance.Output.Size

namespace Concordance.Output

open Text

/-! ## Results -/

/-- The most contexts printed for a hit. -/
def contextsShown : Nat := 3

/-- A context on one line. -/
def oneLine (s : String) : String := String.ofList (squeeze s.toList)

/-- The lines for the context with number `n`. -/
def contextLines (n : Nat) (c : Context) : List String :=
  let page :=
    match c.page with
    | some p => " (Page " ++ decimalText p ++ ")"
    | none => ""
  ["", "   Match " ++ decimalText n ++ page ++ ":", "   " ++ oneLine c.excerpt]

/-- The lines for the hit with number `n`. -/
def hitLines (n : Nat) (h : Hit) : List String :=
  let shown := h.contexts.take contextsShown
  let more := max h.matchCount h.contexts.length - shown.length
  [decimalText n ++ ". " ++ h.filename ++ " (Data Set " ++ decimalText h.dataset.toNat ++ ")",
   "   Pages: " ++ decimalText h.pages.toNat ++ " | Matches: " ++ decimalText h.matchCount,
   "   Path: " ++ h.filepath] ++
  (shown.mapIdx fun i c => contextLines (i + 1) c).flatten ++
  (if 0 < more then ["", "   ... and " ++ decimalText more ++ " more match(es)"] else []) ++
  [""]

/-- The number of the first hit of a page, counted over all pages. -/
def firstOrdinal (r : Response) : Nat := (r.page - 1) * r.perPage + 1

/-- The hits of a page with their numbers. -/
def numbered (r : Response) : List (Nat × Hit) := r.results.mapIdx fun i h => (firstOrdinal r + i, h)

/-- Which part of the result a page is: its first and last number, its own number, and that of all pages. -/
structure Part where
  first : Nat
  last : Nat
  page : Nat
  pages : Nat
deriving DecidableEq, Repr, Inhabited

/-- The part that a page shows, unless it shows all. -/
def part? (r : Response) : Option Part :=
  if r.results.length < r.total then
    some ⟨firstOrdinal r, firstOrdinal r + r.results.length - 1, r.page, (r.total + r.perPage - 1) / r.perPage⟩
  else none

def Part.line (p : Part) : String :=
  "Showing " ++ decimalText p.first ++ "-" ++ decimalText p.last ++ " (page " ++ decimalText p.page ++
    " of " ++ decimalText p.pages ++ ")"

/-- What is printed for a page without hits. -/
def emptyLine (r : Response) : String :=
  if r.total = 0 then "No results found."
  else "Page " ++ decimalText r.page ++ " is past the end (" ++ decimalText r.total ++ " result(s))."

/-- The lines for a response. -/
def responseLines (r : Response) : List String :=
  (r.warnings.map fun w => "⚠ " ++ w.message) ++
  if r.results.isEmpty then ["", emptyLine r]
  else
    ["", rule,
     "Found " ++ decimalText r.total ++ " document(s) with " ++ decimalText r.totalMatches ++
       " total match(es)"] ++
    ((part? r).map Part.line).toList ++
    [rule, ""] ++
    (numbered r).flatMap fun (n, h) => hitLines n h

/-! ## Reports -/

/-- What differs from run to run: the bytes of an index, and the milliseconds that building it took. -/
structure Measured where
  bytes : Nat
  milliseconds : Nat
deriving DecidableEq, Repr, Inhabited

/-- Seconds with two decimals. -/
def secondsText (milliseconds : Nat) : String :=
  let hundredths := roundHalfEven milliseconds 10
  let digits := decimal (hundredths % 100)
  decimalText (hundredths / 100) ++ "." ++
    String.ofList (List.replicate (2 - digits.length) '0' ++ digits) ++ "s"

def Measured.lines (m : Measured) : List String :=
  [row (" Index size         " ++ formatSize m.bytes),
   row (" Elapsed            " ++ secondsText m.milliseconds)]

/-- The lines for a finished build, with what was measured if something was. -/
def buildLines (report : Index.BuildReport) (measured : Option Measured) (target : String) : List String :=
  [sectionTop "INDEX BUILT",
   row (" Documents indexed  " ++ decimalText report.indexed),
   row (" Records skipped    " ++ decimalText report.skipped),
   row (" Batches committed  " ++ decimalText report.batches)] ++
  (measured.map Measured.lines).getD [] ++
  [row (" Location           " ++ target), sectionBottom]

def existingIndexLine (target : String) : String :=
  "Index already exists at " ++ target ++ " (use --force to rebuild)"

def statsLines (backend : String) (s : Stats) : List String :=
  [sectionTop "CORPUS",
   row (" Backend    " ++ backend),
   row (" Documents  " ++ decimalText s.documents),
   row (" Pages      " ++ decimalText s.pages),
   sectionBottom]

/-- The greeting of the prompt. -/
def bannerLines (backend : String) (s : Stats) : List String :=
  heading "FOLIO INTERACTIVE SEARCH" ++
  [decimalText s.documents ++ " documents, " ++ decimalText s.pages ++ " pages (" ++ backend ++ " backend)",
   "Quoted phrases, AND, OR, NOT and NEAR/N work. Type 'quit' to exit."]

/-- The text of lines. -/
def unlines (lines : List String) : String := lines.foldl (fun text line => text ++ line ++ "\n") ""

end Concordance.Output
