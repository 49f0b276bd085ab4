/-
The command line: what the program is asked to do, and with which files and settings.
-/
import Concordance.CommandLine.Value
import Concordance.Scan.Scanner

namespace Concordance.CommandLine

open Output (ExportFormat)

/-! ## Commands -/

/-- How to search, for one query or for all those of a session. -/
structure SearchOptions where
  backend : BackendKind
  dataset : Option UInt32
  minPages : UInt32
  maxPages : Option UInt32
  sort : SortOrder
  page : Nat
  perPage : Nat
  caseSensitive : Bool
  wholeWord : Bool
  contextChars : Nat
  strict : Bool
deriving DecidableEq, Repr, Inhabited

namespace SearchOptions

def scan (o : SearchOptions) : Scan.Options := ⟨o.caseSensitive, o.wholeWord, o.contextChars⟩

/-- The request for a query. -/
def request (o : SearchOptions) (query : String) : Request :=
  { Request.ofQuery query with
    page := o.page, perPage := o.perPage, dataset := o.dataset, minPages := o.minPages, maxPages := o.maxPages
    sort := o.sort, strict := o.strict }

/-- The request for all hits of a query on one page, without contexts, which an export does not show. -/
def exportRequest (o : SearchOptions) (query : String) : Request :=
  { o.request query with page := 1, perPage := UInt64.size - 1, maxContexts := 0 }

end SearchOptions

inductive Command where
  | build (force : Bool) (corpus : Option String) (batchSize : Nat)
  | search (words : List String) (options : SearchOptions) (format : Option ExportFormat)
    (output : Option String)
  | shell (options : SearchOptions)
  | stats (backend : BackendKind)
deriving DecidableEq, Repr, Inhabited

/-- A command line that can be carried out. -/
structure Invocation where
  dataDir : Option String
  indexFile : Option String
  logLevel : LogLevel
  logJson : Bool
  command : Command
deriving DecidableEq, Repr, Inhabited

/-- The query that the words of a search make together. -/
def queryOf (words : List String) : String :=
  String.ofList (Text.joinWith [' '] (words.map String.toList))

/-- The configuration that an invocation asks for in an environment. -/
def Invocation.config (i : Invocation) (lookup : String → Option String) : Config :=
  (Config.ofEnvironment lookup).override i.dataDir i.indexFile

/-! ## Options -/

/-- An option with a value that has to be read. -/
def valued {α : Type} (name : String) (read : String → Except UsageError α) : OptionForm :=
  ⟨name, none, .value fun s => (read s).map fun _ => (), none⟩

def flag (name : String) : OptionForm := ⟨name, none, .nothing, none⟩

def helpOption : OptionForm := ⟨"help", some 'h', .instead .displayHelp, none⟩

def versionOption : OptionForm := ⟨"version", some 'V', .instead .displayVersion, none⟩

/-- The options that every level accepts. -/
def commonOptions : List OptionForm :=
  [{ valued "data-dir" readPath with environment := some Config.dataDirVariable },
   { valued "index" readPath with environment := some Config.indexVariable },
   valued "log-level" readLogLevel,
   flag "log-json",
   helpOption]

def searchOptions : List OptionForm :=
  [valued "backend" readBackend, valued "dataset" readNumber, valued "min-pages" readNumber,
   valued "max-pages" readNumber, valued "sort" readSort, valued "page" readSize, valued "per-page" readSize,
   flag "case-sensitive", flag "whole-word", valued "context-chars" readSize, flag "strict"]

/-- The level without a subcommand. -/
def topForm : LevelForm :=
  ⟨commonOptions ++ [versionOption], ["build", "search", "shell", "stats"], false⟩

/-- The level of a subcommand. -/
def subcommandForm (name : String) : LevelForm :=
  let own :=
    match name with
    | "build" => [flag "force", valued "corpus" readPath, valued "batch-size" readSize]
    | "search" =>
      searchOptions ++ [valued "export" readExport, { valued "output" readPath with short := some 'o' }]
    | "shell" => searchOptions
    | _ => [valued "backend" readBackend]
  ⟨own ++ commonOptions, [], name = "search"⟩

/-! ## Reading a command line -/

/-- What was given for an option. -/
def find? (given : List Given) (name : String) : Option Given := given.find? (·.name = name)

def isGiven (given : List Given) (name : String) : Bool := (find? given name).isSome

/-- The value of an option, if it was given. -/
def optional {α : Type} (given : List Given) (name : String) (read : String → Except UsageError α) :
    Except UsageError (Option α) :=
  match find? given name with
  | none => .ok none
  | some g => (read g.value).map some

/-- The value of an option, or its default. -/
def defaulted {α : Type} (given : List Given) (name : String) (read : String → Except UsageError α)
    (default : α) : Except UsageError α :=
  (optional given name read).map (·.getD default)

def readSearchOptions (given : List Given) : Except UsageError SearchOptions := do
  return {
    backend := ← defaulted given "backend" readBackend .auto
    dataset := ← optional given "dataset" readNumber
    minPages := ← defaulted given "min-pages" readNumber 0
    maxPages := ← optional given "max-pages" readNumber
    sort := ← defaulted given "sort" readSort .relevance
    page := ← defaulted given "page" readSize 1
    perPage := ← defaulted given "per-page" readSize Config.defaultPerPage
    caseSensitive := isGiven given "case-sensitive"
    wholeWord := isGiven given "whole-word"
    contextChars := ← defaulted given "context-chars" readSize Config.defaultContextChars
    strict := isGiven given "strict" }

/-- The command that a subcommand states. A search needs words, and a file to write to needs a format. -/
def readCommand (name : String) (said : Said) : Except UsageError Command :=
  match name with
  | "build" => do
    return .build (isGiven said.given "force") (← optional said.given "corpus" readPath)
      (← defaulted said.given "batch-size" readSize Config.defaultBatchSize)
  | "search" => do
    if said.words.isEmpty || (isGiven said.given "output" && !isGiven said.given "export") then
      .error .missingRequired
    return .search said.words (← readSearchOptions said.given) (← optional said.given "export" readExport)
      (← optional said.given "output" readPath)
  | "shell" => do return .shell (← readSearchOptions said.given)
  | _ => do return .stats (← defaulted said.given "backend" readBackend .auto)

/--
What counts of an option given at both levels: what is said with the subcommand, unless that comes from the
environment and the other does not.
-/
def prevailing (top inner : Option Given) : Option Given :=
  match top, inner with
  | some t, some i => if t.source = .arguments && i.source = .environment then some t else some i
  | t, none => t
  | none, i => i

/-- The options that count of those given at both levels. -/
def mergeGiven (top inner : List Given) : List Given :=
  commonOptions.filterMap fun o => prevailing (find? top o.name) (find? inner o.name)

/-- Reads the arguments behind the program's name. -/
def parse (lookup : String → Option String) (arguments : List String) : Except UsageError Invocation := do
  let (top, subcommand?) ← readArguments topForm false .nothing arguments
  match subcommand? with
  | none =>
    let top ← finish topForm lookup top
    .error (if top.given.isEmpty then .helpOnMissing else .missingSubcommand)
  | some subcommand =>
    let form := subcommandForm subcommand.name
    let (inner, _) ← readArguments form false .nothing subcommand.arguments
    let inner ← finish form lookup inner
    let command ← readCommand subcommand.name inner
    let top ← finish topForm lookup top
    let common := mergeGiven top.given inner.given
    return {
      dataDir := ← optional common "data-dir" readPath
      indexFile := ← optional common "index" readPath
      logLevel := ← defaulted common "log-level" readLogLevel .warn
      logJson := isGiven common "log-json"
      command }

end Concordance.CommandLine
