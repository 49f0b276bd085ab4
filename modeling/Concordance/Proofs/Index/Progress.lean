/-
What a build tells of its progress. An invalid record counts at once, a valid one only when its batch is committed,
so between two reports the numbers do not add up: documents wait. But reports are made when nothing waits, behind a
batch and at the end, and there each record that was passed counts, as indexed or as skipped.
-/
import Concordance.Proofs.Index.Contents

namespace Concordance

/-- The corpus of the first records. -/
def Corpus.take (c : Corpus) (n : Nat) : Corpus := { c with records := c.records.take n }

namespace Index

/--
Does a progress account for the records it has passed, which are the first ones of a corpus? The valid ones of them
are indexed, the invalid ones skipped, and there are no others.
-/
structure Progress.AccountsFor (p : Progress) (c : Corpus) : Prop where
  total : p.total = c.records.length
  within : p.processed ≤ p.total
  indexed : p.indexed = (c.take p.processed).documents.length
  skipped : p.skipped = (c.take p.processed).errors.length
  balanced : p.indexed + p.skipped = p.processed

/-! ## Between reports -/

/-- The progress of a build behind the records that are passed, while documents wait for their batch to be full. -/
structure Progress.Behind (p : Progress) (pending : List Document) (passed rest : List Record) : Prop where
  processed : p.processed = passed.length
  total : p.total = (passed ++ rest).length
  documents : p.indexed + pending.length = (passed.filterMap Record.document?).length
  errors : p.skipped = (passed.filterMap Record.error?).length

namespace Progress.Behind

variable {p : Progress} {pending : List Document} {passed rest : List Record} {r : Record} {c : Corpus}

theorem start (c : Corpus) : Progress.Behind ⟨0, c.records.length, 0, 0⟩ [] [] c.records := ⟨rfl, rfl, rfl, rfl⟩

/-- A document waits for its batch, an error is skipped. -/
theorem pass (h : p.Behind pending passed (r :: rest)) :
    (p.pass r).Behind (r.document?.toList ++ pending) (passed ++ [r]) rest := by
  have processed : p.processed + 1 = (passed ++ [r]).length := by
    rw [h.processed, List.length_append, List.length_singleton]
  have total : p.total = (passed ++ [r] ++ rest).length := by rw [h.total, List.append_cons]
  have documents : p.indexed + pending.length + ([r].filterMap Record.document?).length =
      ((passed ++ [r]).filterMap Record.document?).length := by
    rw [h.documents, List.filterMap_append, List.length_append]
  have errors : p.skipped + ([r].filterMap Record.error?).length =
      ((passed ++ [r]).filterMap Record.error?).length := by
    rw [h.errors, List.filterMap_append, List.length_append]
  cases r with
  | valid d => exact ⟨processed, total, documents, errors⟩
  | invalid e => exact ⟨processed, total, documents, errors⟩

/-- Behind a batch nothing waits. -/
theorem commit (h : p.Behind pending passed rest) : (p.commit pending).Behind [] passed rest where
  processed := h.processed
  total := h.total
  documents := h.documents
  errors := h.errors

/-- At the end all is processed anyway. -/
theorem finish (h : p.Behind pending passed []) : { p with processed := p.total } = p := by
  have all : p.total = p.processed := by rw [h.total, h.processed, List.append_nil]
  cases p
  cases all
  rfl

theorem accountsFor (h : p.Behind [] passed rest) (hc : c.records = passed ++ rest) : p.AccountsFor c := by
  have first : (c.take p.processed).records = passed := by
    rw [Corpus.take, hc, h.processed, List.take_left]
  have indexed : p.indexed = (c.take p.processed).documents.length := by
    rw [Corpus.documents, first, ← h.documents, List.length_nil, Nat.add_zero]
  have skipped : p.skipped = (c.take p.processed).errors.length := by
    rw [Corpus.errors, first, h.errors]
  refine ⟨by rw [h.total, hc], ?_, indexed, skipped, ?_⟩
  · rw [h.processed, h.total, List.length_append]
    exact Nat.le_add_right _ _
  · rw [indexed, skipped, Corpus.length_documents_add_errors, first, h.processed]

end Progress.Behind

/-! ## Reports -/

/-- What is told from some number of records on: it accounts for no fewer each time, and at last for all. -/
inductive Account (c : Corpus) : Nat → List Progress → Prop where
  | done {n : Nat} {p : Progress} (h : p.AccountsFor c) (onwards : n ≤ p.processed) (all : p.processed = p.total) :
    Account c n [p]
  | next {n : Nat} {p : Progress} {told : List Progress} (h : p.AccountsFor c) (onwards : n ≤ p.processed)
    (rest : Account c p.processed told) : Account c n (p :: told)

namespace Account

variable {c : Corpus} {n : Nat} {told : List Progress}

theorem of_le {m : Nat} (h : Account c n told) (hm : m ≤ n) : Account c m told := by
  cases h with
  | done h onwards all => exact .done h (hm.trans onwards) all
  | next h onwards rest => exact .next h (hm.trans onwards) rest

theorem accountsFor (h : Account c n told) : ∀ p ∈ told, p.AccountsFor c ∧ n ≤ p.processed := by
  induction h with
  | done h onwards _ =>
    intro p hp
    rw [List.mem_singleton.1 hp]
    exact ⟨h, onwards⟩
  | next h onwards _ ih =>
    intro p hp
    rcases List.mem_cons.1 hp with rfl | hp
    · exact ⟨h, onwards⟩
    · exact ⟨(ih p hp).1, onwards.trans (ih p hp).2⟩

theorem rising (h : Account c n told) : told.Pairwise (·.processed ≤ ·.processed) := by
  induction h with
  | done _ _ _ => exact List.pairwise_singleton _ _
  | next _ _ rest ih => exact .cons (fun p hp => (rest.accountsFor p hp).2) ih

/-- The last progress that is told is that of the whole corpus. -/
theorem last (h : Account c n told) :
    told.getLast? = some ⟨c.records.length, c.records.length, c.documents.length, c.errors.length⟩ := by
  induction h with
  | @done _ p h _ all =>
    have whole : c.take p.processed = c := by rw [Corpus.take, all, h.total, List.take_length]
    have indexed := h.indexed
    have skipped := h.skipped
    rw [whole] at indexed skipped
    rw [List.getLast?_singleton, ← h.total, ← indexed, ← skipped]
    congr 1
    cases p
    cases all
    rfl
  | next _ _ rest ih =>
    rw [List.getLast?_cons, ih]
    rfl

end Account

/-- The reports among steps. -/
def reports (steps : List BuildStep) : List Progress :=
  steps.filterMap fun
    | .commit _ => none
    | .report p => some p

/-- Whatever waits and wherever the batches end, the steps for the records to come tell of all of them. -/
theorem account_stepsFrom {c : Corpus} (size : Nat) :
    ∀ {rest passed : List Record} {pending : List Document} {p : Progress}, p.Behind pending passed rest →
      c.records = passed ++ rest → Account c p.processed (reports (stepsFrom size pending p rest))
  | [], passed, pending, p, h, hc => by
    have atEnd : (p.commit pending).processed = (p.commit pending).total := congrArg (·.processed) h.finish.symm
    rw [stepsFrom, h.finish]
    split
    · rename_i none
      rw [List.isEmpty_iff] at none
      subst none
      exact .done (h.accountsFor hc) (Nat.le_refl _) atEnd
    · exact .done (h.commit.accountsFor hc) (Nat.le_refl _) atEnd
  | r :: rest, passed, pending, p, h, hc => by
    have later : c.records = passed ++ [r] ++ rest := by rw [hc, List.append_cons]
    have step : p.processed ≤ (p.pass r).processed := by
      cases r <;> exact Nat.le_succ _
    rw [stepsFrom]
    split
    · have full := h.pass.commit
      exact .next (full.accountsFor later) step (account_stepsFrom size full later)
    · exact (account_stepsFrom size h.pass later).of_le step

/-! ## Builds -/

theorem snapshots_foldl_add (steps : List BuildStep) :
    ∀ written : Written, (steps.foldl Written.add written).snapshots = written.snapshots ++ reports steps := by
  induction steps with
  | nil => exact fun written => (List.append_nil _).symm
  | cons step rest ih =>
    intro written
    rw [List.foldl_cons, ih]
    cases step with
    | commit batch => rfl
    | report p => exact List.append_assoc written.snapshots [p] (reports rest)

variable {c : Corpus} {target : String} {batchSize : Nat} {d d' : Disk} {b : Built}

theorem snapshots_of_build (h : Ends (build target c batchSize) d b d') :
    b.snapshots = reports (buildSteps c batchSize) := by
  rw [written_of_build h, snapshots_foldl_add, List.nil_append]

/--
Each time a build that ends well tells how far it has come, the records it has passed are the valid ones it has
indexed and the invalid ones it has skipped. It never goes back, and at last it has passed the whole corpus, with
the numbers of its report.
-/
theorem snapshots_account (h : Ends (build target c batchSize) d b d') :
    (∀ p ∈ b.snapshots, p.AccountsFor c) ∧
      b.snapshots.Pairwise (·.processed ≤ ·.processed) ∧
      b.snapshots.getLast? = some ⟨c.records.length, c.records.length, b.report.indexed, b.report.skipped⟩ := by
  have account : Account c 0 b.snapshots := by
    rw [snapshots_of_build h]
    exact account_stepsFrom _ (.start c) rfl
  refine ⟨fun p hp => (account.accountsFor p hp).1, account.rising, ?_⟩
  rw [account.last, report_of_build h]

/-- Three logs, with records among them and behind them that are none. -/
def mixedLogs : Corpus where
  records :=
    [.valid ⟨1, 1, "a.pdf", "a.pdf", 1, "log", some [0]⟩, .invalid ⟨1, none, .missingField "text"⟩,
     .valid ⟨3, 1, "b.pdf", "b.pdf", 1, "island", none⟩, .valid ⟨4, 2, "c.pdf", "c.pdf", 1, "boat", none⟩,
     .invalid ⟨4, none, .missingField "text"⟩]
  format := .flat
  source := none

/-- In batches of two, two documents and an error are told first, then all. -/
theorem snapshots_mixedLogs :
    ∃ (b : Built) (d' : Disk), Ends (build "search.db" mixedLogs 2) .empty b d' ∧
      b.snapshots = [⟨3, 5, 2, 1⟩, ⟨5, 5, 3, 2⟩] ∧ (∀ p ∈ b.snapshots, p.AccountsFor mixedLogs) ∧
      b.report.indexed = 3 ∧ b.report.skipped = 2 := by
  obtain ⟨b, rows, h⟩ := exists_ends_build (c := mixedLogs) 2 (by decide)
  have told : b.snapshots = [⟨3, 5, 2, 1⟩, ⟨5, 5, 3, 2⟩] := (snapshots_of_build h).trans (by decide)
  obtain ⟨accounts, -, last⟩ := snapshots_account h
  have all : (⟨5, 5, 3, 2⟩ : Progress) = ⟨5, 5, b.report.indexed, b.report.skipped⟩ :=
    Option.some.inj ((congrArg List.getLast? told).symm.trans last)
  obtain ⟨-, -, indexed, skipped⟩ := Progress.mk.inj all
  exact ⟨b, _, h, told, accounts, indexed.symm, skipped.symm⟩

end Index

end Concordance
