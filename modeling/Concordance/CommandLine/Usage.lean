/-
The form of a command line: options and flags by long or short name, words, and subcommands with options of
their own. A value stands behind its option or is attached to it. What is said is settled in turn: an option
whose value stands behind it is settled when the next option or word comes, and the last one when the
arguments end, behind everything that the subcommand says.
-/
import Concordance.Text.Find

namespace Concordance.CommandLine

open Text

/-- Why arguments cannot be used as they are. Help and version are asked for in this way too. -/
inductive UsageError where
  | displayHelp
  | displayVersion
  /-- There are no arguments where a subcommand is needed. -/
  | helpOnMissing
  | missingSubcommand
  | invalidSubcommand
  | unknownArgument
  /-- A value is missing, is empty where it must not be, or is none of those that are possible. -/
  | invalidValue
  /-- A value does not pass its check. -/
  | valueValidation
  /-- An option is given twice. -/
  | argumentConflict
  /-- A flag is given a value. -/
  | tooManyValues
  | missingRequired
deriving DecidableEq, Repr, Inhabited

/-- What an option takes. -/
inductive Takes where
  /-- A value, which has to pass a check. -/
  | value (check : String → Except UsageError Unit)
  /-- Nothing: a flag is there or not. -/
  | nothing
  /-- Nothing: the option is asked for instead of everything else. -/
  | instead (reason : UsageError)

structure OptionForm where
  name : String
  short : Option Char
  takes : Takes
  /-- The environment variable that stands in for an option that is not given. -/
  environment : Option String

/-- What one level of a command line accepts. -/
structure LevelForm where
  options : List OptionForm
  /-- The names of the levels below. -/
  subcommands : List String
  takesWords : Bool

namespace LevelForm

def long? (form : LevelForm) (name : List Char) : Option OptionForm :=
  form.options.find? fun o => o.name.toList = name

def short? (form : LevelForm) (c : Char) : Option OptionForm := form.options.find? (·.short = some c)

end LevelForm

/-! ## What has been said -/

/-- Who gave a value. -/
inductive Source where
  | environment
  | arguments
deriving DecidableEq, Repr, Inhabited

/-- An option that was given; flags have the empty value. -/
structure Given where
  name : String
  value : String
  source : Source
deriving DecidableEq, Repr, Inhabited

/-- What the arguments of a level have said so far. -/
structure Said where
  given : List Given
  words : List String
  /-- The option that is still to be settled, with the value that stands behind it if that has come. -/
  pending : Option (OptionForm × Option String)

namespace Said

def nothing : Said := ⟨[], [], none⟩

/--
Settles an option. One without its value fails first, then one given twice, then a value that fails its
check.
-/
def settle (said : Said) (o : OptionForm) (value : Option String) : Except UsageError Said := do
  let repeated := said.given.any (·.name = o.name)
  match o.takes, value with
  | .instead reason, _ => .error reason
  | .value _, none => .error .invalidValue
  | .value check, some v =>
    if repeated then .error .argumentConflict
    check v
    return { said with given := said.given ++ [⟨o.name, v, .arguments⟩] }
  | .nothing, _ =>
    if repeated then .error .argumentConflict
    return { said with given := said.given ++ [⟨o.name, "", .arguments⟩] }

/-- Settles the pending option. -/
def settlePending (said : Said) : Except UsageError Said :=
  match said.pending with
  | none => .ok said
  | some (o, value) => settle { said with pending := none } o value

/-- Settles an option whose value is attached, or that takes none. -/
def give (said : Said) (o : OptionForm) (value : Option String) : Except UsageError Said := do
  (← said.settlePending).settle o value

/-- Leaves an option pending until its value has come. -/
def await (said : Said) (o : OptionForm) : Except UsageError Said := do
  return { ← said.settlePending with pending := some (o, none) }

def addWord (said : Said) (word : String) : Except UsageError Said := do
  let said ← said.settlePending
  return { said with words := said.words ++ [word] }

/-- The pending option, if its value has not come. -/
def awaiting? (said : Said) : Option OptionForm :=
  match said.pending with
  | some (o, none) => some o
  | _ => none

end Said

/-! ## Arguments -/

/-- A subcommand with the arguments behind it. -/
structure Subcommand where
  name : String
  arguments : List String
deriving DecidableEq, Repr, Inhabited

/-- The name of a long option and the value attached to it. -/
def readLong (form : LevelForm) (said : Said) (text : List Char) : Except UsageError Said :=
  let (name, attached) :=
    match cutAt? (· == '=') text with
    | some (name, value) => (name, some (String.ofList value))
    | none => (text, none)
  match form.long? name with
  | none => .error .unknownArgument
  | some o =>
    match o.takes, attached with
    | .value _, none => said.await o
    | .value _, some v => said.give o (some v)
    | _, some _ => .error .tooManyValues
    | _, none => said.give o none

/--
Short options in one argument. The first that takes a value has the rest for it, behind an equals sign or
not.
-/
def readShort (form : LevelForm) (said : Said) : List Char → Except UsageError Said
  | [] => .ok said
  | c :: rest =>
    match form.short? c with
    | none => .error .unknownArgument
    | some o =>
      match o.takes, rest with
      | .value _, [] => said.await o
      | .value _, '=' :: value => said.give o (some (String.ofList value))
      | .value _, value => said.give o (some (String.ofList value))
      | _, rest => do readShort form (← said.give o none) rest

/-- What asking for the help of a subcommand comes to: only one level has subcommands. -/
def helpFor (form : LevelForm) : List String → UsageError
  | [] => .displayHelp
  | [name] => if form.subcommands.contains name || name = "help" then .displayHelp else .invalidSubcommand
  | _ => .invalidSubcommand

/-- Is an argument the name of a level below, or of the help on them? -/
def LevelForm.isSubcommand (form : LevelForm) (argument : String) : Bool :=
  form.subcommands.contains argument || (!form.subcommands.isEmpty && argument = "help")

/-- An argument that is neither an option nor a value of one; `onlyWords` says that words alone may come. -/
def readWord (form : LevelForm) (onlyWords : Bool) (said : Said) (argument : String) : Except UsageError Said :=
  if form.takesWords then said.addWord argument
  else if form.subcommands.isEmpty || (onlyWords && form.isSubcommand argument) then .error .unknownArgument
  else .error .invalidSubcommand

/-- Reads the arguments of a level up to the subcommand. `onlyWords` holds behind `--`. -/
def readArguments (form : LevelForm) (onlyWords : Bool) (said : Said) :
    List String → Except UsageError (Said × Option Subcommand)
  | [] => .ok (said, none)
  | argument :: rest =>
    if onlyWords then do readArguments form true (← readWord form true said argument) rest
    else if said.awaiting?.isNone && form.isSubcommand argument then
      if argument = "help" then .error (helpFor form rest) else .ok (said, some ⟨argument, rest⟩)
    else
      match argument.toList, said.awaiting? with
      | ['-', '-'], _ => readArguments form true said rest
      | '-' :: '-' :: text, _ => do readArguments form false (← readLong form said text) rest
      | '-' :: c :: text, _ => do readArguments form false (← readShort form said (c :: text)) rest
      | _, some o => readArguments form false { said with pending := some (o, some argument) } rest
      | _, none => do readArguments form false (← readWord form false said argument) rest

/-- Settles what is pending and adds what the environment gives for options that were not given. -/
def finish (form : LevelForm) (lookup : String → Option String) (said : Said) : Except UsageError Said := do
  let said ← said.settlePending
  form.options.foldlM (fun said o => do
      match o.takes, o.environment.bind lookup with
      | .value check, some v =>
        if said.given.any (·.name = o.name) then return said
        check v
        return { said with given := said.given ++ [⟨o.name, v, .environment⟩] }
      | _, _ => return said)
    said

end Concordance.CommandLine
