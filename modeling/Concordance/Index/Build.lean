/-
Building an index from a corpus. The index is written batch by batch to a staging file beside the target,
which it replaces only when it is complete: readers see the old index or the new one. If something fails
on the way, the staging file is removed again. At last the index is measured where it now is.
-/
import Concordance.Index.Access

namespace Concordance.Index

/-! ## Batches -/

/-- How far a build has come: the records it has passed, of how many, and what has become of them. -/
structure Progress where
  processed : Nat
  total : Nat
  indexed : Nat
  skipped : Nat
deriving DecidableEq, Repr, Inhabited

def Progress.message (p : Progress) : String :=
  Text.decimalText p.indexed ++ " indexed, " ++ Text.decimalText p.skipped ++ " skipped"

/-- What a build does: it commits a batch of documents, or tells how far it has come. -/
inductive BuildStep where
  | commit (batch : List Document)
  | report (progress : Progress)
deriving DecidableEq, Repr, Inhabited

/-- The progress once a record has been looked at: what is no document is skipped. -/
def Progress.pass (p : Progress) : Record → Progress
  | .valid _ => { p with processed := p.processed + 1 }
  | .invalid _ => { p with processed := p.processed + 1, skipped := p.skipped + 1 }

/-- The progress once a batch is committed. -/
def Progress.commit (p : Progress) (batch : List Document) : Progress :=
  { p with indexed := p.indexed + batch.length }

/--
The steps for records, in batches of `size` documents. `pending` holds the documents that wait for their
batch to be full, latest first; they are not counted as indexed before it is committed.
-/
def stepsFrom (size : Nat) (pending : List Document) (p : Progress) : List Record → List BuildStep
  | [] =>
    let p := { p with processed := p.total }
    if pending.isEmpty then [.report p] else [.commit pending.reverse, .report (p.commit pending)]
  | r :: rest =>
    let pending := r.document?.toList ++ pending
    let p := p.pass r
    if size ≤ pending.length then
      .commit pending.reverse :: .report (p.commit pending) :: stepsFrom size [] (p.commit pending) rest
    else stepsFrom size pending p rest

/-- The steps for a corpus. A batch has at least one document. -/
def buildSteps (c : Corpus) (batchSize : Nat) : List BuildStep :=
  stepsFrom (max batchSize 1) [] ⟨0, c.records.length, 0, 0⟩ c.records

/-- What a build has done. -/
structure BuildReport where
  indexed : Nat
  skipped : Nat
  batches : Nat
deriving DecidableEq, Repr, Inhabited

/-- What writing an index has done, and how far it had come each time it told. -/
structure Written where
  report : BuildReport
  snapshots : List Progress
deriving DecidableEq, Repr, Inhabited

/-- What a build has done, and how many bytes its index has. -/
structure Built extends Written where
  size : Nat
deriving DecidableEq, Repr, Inhabited

/-! ## Building -/

/-- Where an index is written until it is complete. -/
def stagingPath (target : String) : String := Path.sibling target ".building"

variable {m : Type → Type} [Monad m] [FileStore m]

/-- Carries out steps on a file that holds the rows so far, and finishes the file behind the last of them. -/
def runSteps (path : String) (rows : Rows) (written : Written) : List BuildStep → ExceptT Error m Written
  | [] => do
    storageTask (FileStore.write path (.index rows))
    return written
  | .commit batch :: rest => do
    match rows.insertAll? (batch.map Row.ofDocument) with
    | none => throw (.storage .duplicateId)
    | some rows =>
      storageTask (FileStore.write path (.index rows))
      let report :=
        { written.report with
          indexed := written.report.indexed + batch.length
          batches := written.report.batches + 1 }
      runSteps path rows { written with report } rest
  | .report p :: rest =>
    runSteps path rows
      { report := { written.report with skipped := p.skipped }, snapshots := written.snapshots ++ [p] } rest

/-- Writes the index of a corpus to a file. A journal that is there would be taken for its own. -/
def writeIndex (path : String) (c : Corpus) (batchSize : Nat) : ExceptT Error m Written := do
  checkLength path
  storageTask (FileStore.write path (.index .empty))
  storageTask (removeAll [rollbackPath path])
  runSteps path .empty ⟨⟨0, 0, 0⟩, []⟩ (buildSteps c batchSize)

/-- Puts a complete index in the place of the target. -/
def publish (staging target : String) : ExceptT Error m Unit := do
  fileTask (removeAll (journals target))
  fileTask (FileStore.rename staging target)

/-- Does a task, and cleans up if it fails. That the cleaning fails is not told. -/
def cleaningUp {α : Type} (task : ExceptT Error m α) (cleanup : m (Except FileError Unit)) :
    ExceptT Error m α :=
  ExceptT.mk do
    match ← task.run with
    | .ok a => return .ok a
    | .error e =>
      let _ ← cleanup
      return .error e

/-- Puts the index of a corpus in the place of whatever file is at the target. -/
def install (target : String) (c : Corpus) (batchSize : Nat) : ExceptT Error m Written := do
  if let some directory := Path.parent? target then
    fileTask (FileStore.createDirectories directory)
  let staging := stagingPath target
  fileTask (removeIndex staging)
  cleaningUp
    (do
      let written ← writeIndex staging c batchSize
      publish staging target
      return written)
    (removeIndex staging)

/--
Builds the index of a corpus in the place of whatever file is at the target, and measures it there. A build whose
index cannot be measured has failed, although the index is in its place.
-/
def build (target : String) (c : Corpus) (batchSize : Nat) : ExceptT Error m Built := do
  let written ← install target c batchSize
  return ⟨written, ← fileTask (FileStore.size target)⟩

/-- What came of asking for an index. -/
inductive BuildOutcome where
  | built (result : Built)
  /-- There was something at the target already. -/
  | existing (path : String)
deriving DecidableEq, Repr, Inhabited

/-- Builds the index of a corpus that a task finds, unless something is at the target and not to be replaced. -/
def ensureWith (target : String) (corpus : ExceptT Error m Corpus) (batchSize : Nat) (force : Bool) :
    ExceptT Error m BuildOutcome := do
  if (← kindAt? target).isSome && !force then return .existing target
  return .built (← build target (← corpus) batchSize)

/-- Builds the index of the corpus in a file, unless something is at the target and not to be replaced. -/
def ensure (target source : String) (batchSize : Nat) (force : Bool) : ExceptT Error m BuildOutcome :=
  ensureWith target (Corpus.load source) batchSize force

end Concordance.Index
