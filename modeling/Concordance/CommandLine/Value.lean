/-
The values of options: how each kind of value is written.
-/
import Concordance.CommandLine.Usage
import Concordance.Engine.Backend
import Concordance.Engine.Request
import Concordance.Output.Export

namespace Concordance.CommandLine

open Text

/-- How much the program tells about what it does; nothing of that is part of its answers. -/
inductive LogLevel where
  | error
  | warn
  | info
  | debug
  | trace
deriving DecidableEq, Repr, Inhabited

def LogLevel.name : LogLevel → String
  | error => "ERROR"
  | warn => "WARN"
  | info => "INFO"
  | debug => "DEBUG"
  | trace => "TRACE"

/-- The digits behind a plus sign, if there is one. -/
def unsigned : List Char → List Char
  | '+' :: digits => digits
  | s => s

/-- A natural number of 64 bits, which may have a plus sign. -/
def readSize (s : String) : Except UsageError Nat :=
  match readBelow? UInt64.size (unsigned s.toList) with
  | some n => .ok n
  | none => .error .valueValidation

/-- A number of 32 bits. It may have a sign, so zero is also written with a minus sign. -/
def readNumber (s : String) : Except UsageError UInt32 :=
  let n? :=
    match s.toList with
    | '-' :: digits => readBelow? 1 digits
    | s => readBelow? UInt32.size (unsigned s)
  match n? with
  | some n => .ok (UInt32.ofNat n)
  | none => .error .valueValidation

/-- A path, which is not empty. -/
def readPath (s : String) : Except UsageError String :=
  if s.isEmpty then .error .invalidValue else .ok s

/-- A value whose reader says why it is none. -/
def validated {α : Type} : Except String α → Except UsageError α
  | .ok a => .ok a
  | .error _ => .error .valueValidation

def readBackend (s : String) : Except UsageError BackendKind := validated (BackendKind.ofText s)

def readSort (s : String) : Except UsageError SortOrder := validated (SortOrder.ofText s)

/-- A level by its number, from 1 for errors alone to 5, or by its name in any ASCII case. -/
def readLogLevel (s : String) : Except UsageError LogLevel :=
  let levels := [LogLevel.error, .warn, .info, .debug, .trace]
  let byNumber? :=
    (readBelow? UInt64.size (unsigned s.toList)).bind fun n => if n = 0 then none else levels[n - 1]?
  let upper := String.ofList (s.toList.map Char.toUpper)
  match byNumber? <|> levels.find? (·.name = upper) with
  | some level => .ok level
  | none => .error .valueValidation

def readExport : String → Except UsageError Output.ExportFormat
  | "csv" => .ok .csv
  | "json" => .ok .json
  | _ => .error .invalidValue

end Concordance.CommandLine
