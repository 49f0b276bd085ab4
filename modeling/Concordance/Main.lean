/-
The program: it works on the files of the machine, and holds its sessions with who sits at the prompt.
-/
import Concordance.CommandLine.Help
import Concordance.CommandLine.Run
import Concordance.Files.Stored

namespace Concordance.Program

open CommandLine Output

/-- The error of an operation on the machine's files. -/
def fileErrorOf : IO.Error → FileError
  | .noFileOrDirectory _ _ _ => .notFound
  | .alreadyExists _ _ _ => .alreadyExists
  | .inappropriateType _ code _ => if code = 21 then .isDirectory else .notDirectory
  | e => .other (toString e)

/-- Tries an operation on the machine's files. -/
def attempt {α : Type} (operation : IO α) : IO (Except FileError α) := do
  return (← operation.toBaseIO).mapError fileErrorOf

/-- Reads a byte, which only files have. -/
def probe (path : String) : IO Unit := do
  let _ ← (← IO.FS.Handle.mk path .read).read 1

instance : FileStore IO where
  kind? path := do
    match ← attempt (probe path) with
    | .ok () => return some .file
    | .error .isDirectory => return some .directory
    | .error _ => return none
  size path := do
    match ← attempt (IO.FS.readBinFile path) with
    | .ok bytes => return .ok bytes.size
    | .error .isDirectory => return .ok 0
    | .error e => return .error e
  read path := do
    match ← attempt (IO.FS.readBinFile path) with
    | .error e => return .error e
    | .ok bytes => return FileContent.ofBytes bytes
  write path content := attempt (IO.FS.writeBinFile path content.toBytes)
  remove path := attempt (IO.FS.removeFile path)
  rename source target := attempt (IO.FS.rename source target)
  createDirectories path := attempt (IO.FS.createDirAll path)

def put (p : Printed) : IO Unit := do
  let output ← IO.getStdout
  output.putStr p.output
  output.flush
  (← IO.getStderr).putStr p.errors

/-- Reads queries and prints the replies until the session or the input ends. -/
partial def converse (backend : Backend) (options : SearchOptions) : IO Unit := do
  put ⟨prompt, ""⟩
  let line ← (← IO.getStdin).getLine
  if line.isEmpty then put ⟨"\n", ""⟩
  else
    match reply? backend options line with
    | none => return ()
    | some reply =>
      put reply
      converse backend options

/-- What was measured of a command that started at an instant. -/
def measured (started : Nat) : Outcome → IO (Option Measured)
  | .built _ result => do return some ⟨result.size, (← IO.monoMsNow) - started⟩
  | _ => return none

def carryOut (i : Invocation) (lookup : String → Option String) : IO UInt32 := do
  let started ← IO.monoMsNow
  match ← (perform (i.config lookup) i.command : ExceptT Error IO Outcome).run with
  | .error e =>
    put (.ofError e)
    return 1
  | .ok outcome =>
    put (outcome.printed (← measured started outcome))
    match outcome with
    | .session backend options => converse backend options
    | _ => pure ()
    return 0

/-- Carries out what the arguments ask for; the result is the exit code. -/
def runArguments (arguments : List String) : IO UInt32 := do
  let dataDir ← IO.getEnv Config.dataDirVariable
  let indexFile ← IO.getEnv Config.indexVariable
  let lookup (name : String) : Option String :=
    if name = Config.dataDirVariable then dataDir else if name = Config.indexVariable then indexFile else none
  match parse lookup arguments with
  | .error e =>
    put (if e.exitCode = 0 then ⟨unlines e.lines, ""⟩ else ⟨"", unlines e.lines⟩)
    return e.exitCode.toUInt32
  | .ok i => carryOut i lookup

end Concordance.Program

def main (arguments : List String) : IO UInt32 := Concordance.Program.runArguments arguments
