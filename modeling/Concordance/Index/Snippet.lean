/-
Snippets: a row's text with markers around the instances of the phrases, cut down to the best window of 64
tokens if it is longer. A window is the better the more phrases it shows, then the more instances, and a
window at the start of a sentence is preferred to one that is not.
-/
import Concordance.Index.Token
import Concordance.Text.Find

namespace Concordance.Index

/-- An instance of a phrase: the number of the phrase, its terms, and its place. -/
structure Instance where
  phrase : Nat
  size : Nat
  place : Nat
deriving DecidableEq, Repr, Inhabited

namespace Snippet

/-- The most tokens of a snippet. -/
def width : Nat := 64

def openMark : List Char := ['>', '>', '>', '>']

def closeMark : List Char := ['<', '<', '<', '<']

def ellipsis : List Char := ['.', '.', '.']

/-- The instances of phrases of these sizes, by place, at one place by phrase. -/
def orderInstances (sizes : List Nat) (found : List (List Nat)) : List Instance :=
  let all := (List.zip sizes found).mapIdx fun phrase (size, places) => places.map (Instance.mk phrase size)
  all.flatten.mergeSort fun a b => a.place < b.place || (a.place = b.place && a.phrase ≤ b.phrase)

/-! ## Choosing a window -/

/-- The instances that start in the window from a token on. -/
def inWindow (start : Nat) (found : List Instance) : List Instance :=
  found.filter fun i => start ≤ i.place && i.place < start + width

/-- 1000 for the first instance of each phrase in a window, and 1 for each further one. -/
def windowScore (start : Nat) (found : List Instance) : Nat :=
  let shown := inWindow start found
  let phrases := (shown.map (·.phrase)).eraseDups.length
  1000 * phrases + (shown.length - phrases)

/-- The start that puts the instances of a window in its middle, as far as the text allows. -/
def centred (start tokenCount : Nat) (found : List Instance) : Nat :=
  let shown := inWindow start found
  let first : Int := ((shown.head?.map fun i => i.place).getD 0 : Nat)
  let last : Int := ((shown.getLast?.map fun i => i.place + i.size).getD 0 : Nat)
  let middle : Int := first - ((width : Int) - (last - first)).tdiv 2
  (if (tokenCount : Int) < middle + width then (tokenCount : Int) - width else middle).toNat

def isSentenceGap (c : Char) : Bool := c = ' ' || c = '\t' || c = '\n' || c = '\r'

/-- Does a sentence start behind this text: is there a point or a colon at its end, and blanks behind that? -/
def endsSentence (before : List Char) : Bool :=
  let backwards := before.reverse
  match backwards.takeWhile isSentenceGap, backwards.dropWhile isSentenceGap with
  | _ :: _, c :: _ => c = '.' || c = ':'
  | _, _ => false

/-- The tokens that start a sentence, the first token among them. -/
def sentenceStarts (text : List Char) (ts : List Token) : List Nat :=
  (ts.zipIdx.filter fun (t, i) => i = 0 || endsSentence (text.take t.start)).map (·.2)

/-- A window: its score and its first token. -/
structure Window where
  score : Nat
  start : Nat
deriving DecidableEq, Repr, Inhabited

/-- The windows that an instance suggests: one around it, and one at the start of its sentence. -/
def windowsFor (starts : List Nat) (tokenCount : Nat) (found : List Instance) (i : Instance) : List Window :=
  ⟨windowScore i.place found, centred i.place tokenCount found⟩ ::
    match (starts.filter (· ≤ i.place)).getLast? with
    | some s =>
      if width < tokenCount && s < i.place then
        [⟨windowScore s found + (if s = 0 then 120 else 100), s⟩]
      else []
    | none => []

/-- The start of the first window with the best score. -/
def bestStart (text : List Char) (ts : List Token) (found : List Instance) : Nat :=
  let starts := sentenceStarts text ts
  let windows := found.flatMap (windowsFor starts ts.length found)
  (windows.foldl (fun best w => if best.score < w.score then w else best) ⟨0, 0⟩).start

/-! ## Marking -/

/-- The runs of tokens that instances cover behind a run; instances that overlap share one. -/
def coveredFrom (first last : Nat) : List Instance → List (Nat × Nat)
  | [] => [(first, last)]
  | i :: rest =>
    if i.place ≤ last then coveredFrom first (max last (i.place + i.size - 1)) rest
    else (first, last) :: coveredFrom i.place (i.place + i.size - 1) rest

/-- The runs of tokens that instances cover, each with its first and last token. -/
def coveredRuns : List Instance → List (Nat × Nat)
  | [] => []
  | i :: rest => coveredFrom i.place (i.place + i.size - 1) rest

/-- The text between two places. A NUL ends what is copied. -/
def piece (text : List Char) (start stop : Nat) : List Char :=
  ((text.drop start).take (stop - start)).takeWhile (· ≠ '\x00')

/--
A snippet in the making: what is written, up to where the text is copied, if a mark is open, and the runs
to come.
-/
structure Draft where
  out : List Char
  copied : Nat
  isOpen : Bool
  runs : List (Nat × Nat)
deriving DecidableEq, Repr, Inhabited

namespace Draft

def write (d : Draft) (s : List Char) : Draft := { d with out := d.out ++ s }

/-- Copies the text up to a place. -/
def copyTo (d : Draft) (text : List Char) (stop : Nat) : Draft :=
  { d with out := d.out ++ piece text d.copied stop, copied := stop }

def openRun (d : Draft) : Draft := if d.isOpen then d else { d.write openMark with isOpen := true }

def closeRun (d : Draft) : Draft := if d.isOpen then { d.write closeMark with isOpen := false } else d

/-- Passes a token: closes the mark of a run that has ended, and opens and ends the next one where it is due. -/
def passToken (text : List Char) (d : Draft) (token : Token × Nat) : Draft :=
  let (t, i) := token
  let d := if d.runs.head?.all fun (first, _) => i ≤ first then d.closeRun else d
  let d :=
    if !d.isOpen && d.runs.head?.any fun (first, _) => i = first then (d.copyTo text t.start).openRun else d
  match d.runs with
  | (_, last) :: rest => if i = last then { d.openRun.copyTo text t.stop with runs := rest } else d
  | [] => d

/-- Ends the window behind a token. -/
def endWindow (text : List Char) (d : Draft) (token : Token × Nat) : Draft :=
  let (t, i) := token
  let d := if d.isOpen && d.runs.head?.any fun (first, _) => first ≤ i then d.copyTo text t.stop else d
  d.closeRun.copyTo text t.stop

end Draft

/-- The snippet of a text with these instances, in the window from token `start` on. -/
def render (text : List Char) (ts : List Token) (found : List Instance) (start : Nat) : List Char :=
  let window := (ts.zipIdx.drop start).take width
  let runs := (coveredRuns found).dropWhile fun (first, _) => first < start
  let copied := if start = 0 then 0 else (window.head?.map (·.1.start)).getD 0
  let d : Draft := ⟨if start = 0 then [] else ellipsis, copied, false, runs⟩
  let d := window.foldl (Draft.passToken text) d
  let d :=
    match window.getLast? with
    | some last => if window.length = width then d.endWindow text last else d
    | none => d
  let d := d.closeRun
  if ts.length ≤ start + width then d.out ++ piece text d.copied text.length else d.out ++ ellipsis

end Snippet

/-- The snippet of a text with marks around the instances of phrases, whose sizes are given. -/
def snippet (text : List Char) (ts : List Token) (sizes : List Nat) (found : List (List Nat)) : List Char :=
  let instances := Snippet.orderInstances sizes found
  Snippet.render text ts instances (Snippet.bestStart text ts instances)

end Concordance.Index
