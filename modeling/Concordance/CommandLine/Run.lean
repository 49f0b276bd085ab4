/-
Carrying out commands: what each comes to, and what is printed for it. A session at the prompt reads one
query from each line until it is told to quit.
-/
import Concordance.CommandLine.Command
import Concordance.Engine.Evaluate
import Concordance.Engine.Open
import Concordance.Output.Results

namespace Concordance.CommandLine

open Output

/-- The texts that go to the two outputs of the program. -/
structure Printed where
  output : String
  errors : String
deriving DecidableEq, Repr, Inhabited

namespace Printed

def append (p q : Printed) : Printed := ⟨p.output ++ q.output, p.errors ++ q.errors⟩

def ofLines (lines : List String) : Printed := ⟨unlines lines, ""⟩

def ofError (e : Error) : Printed := ⟨"", unlines ["❌ " ++ e.message]⟩

end Printed

/-! ## Commands -/

/-- What a command comes to. -/
inductive Outcome where
  | built (target : String) (result : Index.Built)
  | existing (target : String)
  | results (response : Response)
  /-- An export that goes to the program's output. -/
  | exported (text : String)
  /-- An export of so many hits that went to a file. -/
  | exportedTo (path : String) (hits : Nat)
  /-- A session at the prompt, which is yet to be held. -/
  | session (backend : Backend) (options : SearchOptions)
  | stats (backend : String) (stats : Stats)
deriving DecidableEq, Repr, Inhabited

/-- What is printed for an outcome; of a session, what is printed before its first prompt. -/
def Outcome.printed (measured : Option Measured) : Outcome → Printed
  | built target result => .ofLines (buildLines result.report measured target)
  | existing target => .ofLines [existingIndexLine target]
  | results response => .ofLines (responseLines response)
  | exported text => ⟨text, ""⟩
  | exportedTo path hits => ⟨"", unlines ["Exported " ++ Text.decimalText hits ++ " result(s) to " ++ path]⟩
  | session backend _ => .ofLines (bannerLines backend.name backend.stats)
  | stats backend s => .ofLines (statsLines backend s)

/-- Answers a request, whose query has to be clear if it is strict. -/
def ask (b : Backend) (r : Request) : Except Error Response := (b.answer r).mapError Error.ambiguous

section

variable {m : Type → Type} [Monad m] [FileStore m]

/-- Builds the index of the given corpus, or of the one that is found. -/
def performBuild (c : Config) (force : Bool) (corpus : Option String) (batchSize : Nat) :
    ExceptT Error m Outcome := do
  let source : ExceptT Error m Corpus :=
    match corpus with
    | some path => Corpus.load path
    | none => Corpus.discover c
  match ← Index.ensureWith c.indexPath source batchSize force with
  | .built result => return .built c.indexPath result
  | .existing path => return .existing path

/-- Searches, and exports the hits if a format is given. -/
def performSearch (c : Config) (query : String) (o : SearchOptions) (format : Option ExportFormat)
    (output : Option String) : ExceptT Error m Outcome := do
  let backend ← Backend.openKind o.backend c o.scan
  match format, output with
  | none, _ => return .results (← ExceptT.mk (pure (ask backend (o.request query))))
  | some format, output => do
    let response ← ExceptT.mk (pure (ask backend (o.exportRequest query)))
    let text := exportHits format response.results
    match output with
    | none => return .exported text
    | some path =>
      fileTask (FileStore.write path (.text text))
      return .exportedTo path response.results.length

/-- Carries out a command; a session is only opened. -/
def perform (c : Config) : Command → ExceptT Error m Outcome
  | .build force corpus batchSize => performBuild c force corpus batchSize
  | .search words options format output => performSearch c (queryOf words) options format output
  | .shell options => do return .session (← Backend.openKind options.backend c options.scan) options
  | .stats kind => do
    let backend ← Backend.openKind kind c ⟨false, false, Config.defaultContextChars⟩
    return .stats backend.name backend.stats

end

/-! ## Sessions -/

def prompt : String := "\nSearch> "

/-- Does a line ask to quit? No letters but those of ASCII are other cases of these. -/
def isFarewell (line : List Char) : Bool :=
  [['q', 'u', 'i', 't'], ['e', 'x', 'i', 't'], ['q']].contains (line.map Char.toLower)

/-- What is printed for a line, unless it ends the session. A query that is refused does not. -/
def reply? (b : Backend) (o : SearchOptions) (line : String) : Option Printed :=
  let query := Text.trim line.toList
  if query.isEmpty then some ⟨"", ""⟩
  else if isFarewell query then none
  else
    match ask b (o.request (String.ofList query)) with
    | .ok response => some (.ofLines (responseLines response))
    | .error e => some (.ofError e)

/-- What is printed in a session in which these lines are entered, and then no more. -/
def sessionPrinted (b : Backend) (o : SearchOptions) : List String → Printed
  | [] => ⟨prompt ++ "\n", ""⟩
  | line :: rest =>
    match reply? b o line with
    | none => ⟨prompt, ""⟩
    | some reply => (Printed.append ⟨prompt, ""⟩ reply).append (sessionPrinted b o rest)

/-- The lines of a text, without the line breaks. The last line need not have one. -/
def linesOf (text : String) : List String :=
  let lines := Text.pieces (· == '\n') text.toList
  let lines := if lines.getLast? = some [] then lines.dropLast else lines
  lines.map fun line => String.ofList (if line.getLast? = some '\r' then line.dropLast else line)

/-! ## Runs -/

/-- What a run of the program leaves: its exit code and its outputs. -/
structure Run where
  exit : UInt8
  printed : Printed
deriving DecidableEq, Repr, Inhabited

/-- A run of the program with this input. -/
def run {m : Type → Type} [Monad m] [FileStore m] (c : Config) (command : Command) (input : String) :
    m Run := do
  match ← (perform c command).run with
  | .error e => return ⟨1, .ofError e⟩
  | .ok (.session backend options) =>
    return ⟨0, ((Outcome.session backend options).printed none).append
      (sessionPrinted backend options (linesOf input))⟩
  | .ok outcome => return ⟨0, outcome.printed none⟩

end Concordance.CommandLine
