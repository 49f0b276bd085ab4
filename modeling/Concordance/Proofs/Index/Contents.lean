/-
What a build leaves behind and reports. Each valid record becomes the row of its position; invalid records
leave a gap in the ids. The size of a batch decides only how many batches there are, and what was on the disk
before decides nothing.
-/
import Mathlib.Algebra.Order.Floor.Div
import Concordance.Engine.Open
import Concordance.Proofs.Corpus.Records
import Concordance.Proofs.Index.Tables

namespace Concordance

namespace Index

/-- What is stored of a page table: its JSON text, unless it is missing or has no entries. -/
def storedOffsets : Option (List Nat) → Option String
  | none => none
  | some [] => none
  | some (o :: offsets) => some (offsetsText (o :: offsets))

end Index

open Index

/-- The row of the record at a position, if the record is valid. Ids count from 1. -/
def Record.row? (position : Nat) : Record → Option Row
  | .valid d =>
    some ⟨UInt32.ofNat (position + 1), d.dataset, d.filename, d.filepath, d.pages, storedOffsets d.pageOffsets, d.text⟩
  | .invalid _ => none

namespace Corpus

/-- The rows of the valid records. -/
def rows (c : Corpus) : List Row := c.records.zipIdx.filterMap fun r => r.1.row? r.2

/-! ## Rows of records -/

theorem storedOffsets_eq (offsets : Option (List Nat)) :
    storedOffsets offsets = (offsets.filter (!·.isEmpty)).map offsetsText := by
  match offsets with
  | none => rfl
  | some [] => rfl
  | some (o :: rest) => rfl

theorem row?_eq {position : Nat} {d : Document} (h : d.id = UInt32.ofNat (position + 1)) :
    Record.row? position (.valid d) = some (Row.ofDocument d) := by
  rw [Record.row?, Row.ofDocument, storedOffsets_eq, h]

theorem rows_eq_from {records : List Record} {start : Nat}
    (h : ∀ i d, records[i]? = some (.valid d) → d.id = UInt32.ofNat (start + i + 1)) :
    ((records.zipIdx start).filterMap fun r => r.1.row? r.2) =
      (records.filterMap Record.document?).map Row.ofDocument := by
  induction records generalizing start with
  | nil => rfl
  | cons r rest ih =>
    have later : ∀ i d, rest[i]? = some (.valid d) → d.id = UInt32.ofNat (start + 1 + i + 1) := by
      intro i d hd
      rw [h (i + 1) d (by simpa using hd)]
      congr 1
      omega
    rw [List.zipIdx_cons, List.filterMap_cons, ih later]
    cases r with
    | invalid e => rfl
    | valid d =>
      dsimp only
      rw [row?_eq (h 0 d rfl)]
      rfl

/-- The rows are those of the documents. -/
theorem Numbered.rows_eq {c : Corpus} (h : c.Numbered) : c.rows = c.documents.map Row.ofDocument :=
  rows_eq_from fun i d hd => by simpa using h i d hd

/-- As long as positions fit into ids, rows come in the order of their ids. -/
theorem Numbered.pairwise_rows {c : Corpus} (h : c.Numbered) (hsize : c.records.length < UInt32.size) :
    c.rows.Pairwise fun r s => r.id < s.id := by
  rw [h.rows_eq, List.pairwise_map]
  exact h.pairwise_ids hsize

end Corpus

namespace Index

open FileTree

/-! ## Reports -/

/-- What a step adds to a report. -/
def BuildReport.add (r : BuildReport) : BuildStep → BuildReport
  | .commit batch => { r with indexed := r.indexed + batch.length, batches := r.batches + 1 }
  | .report p => { r with skipped := p.skipped }

/-- What a step adds to what has been written. -/
def Written.add (w : Written) : BuildStep → Written
  | .commit batch => { w with report := w.report.add (.commit batch) }
  | .report p => { report := w.report.add (.report p), snapshots := w.snapshots ++ [p] }

/-- Steps that are carried out to the end have all been added. -/
theorem written_of_runSteps {path : String} {w : Written} :
    ∀ {steps : List BuildStep} {rows : Rows} {written : Written} {d d' : Disk},
      Ends (runSteps path rows written steps) d w d' → w = steps.foldl Written.add written
  | [], rows, written, d, d', h => by
    rw [runSteps] at h
    obtain ⟨_, _, -, h⟩ := ends_bind.1 h
    obtain ⟨rfl, -⟩ := ends_pure.1 h
    rfl
  | .commit batch :: rest, rows, written, d, d', h => by
    rw [runSteps] at h
    split at h
    · exact absurd h not_ends_throw
    · obtain ⟨_, _, -, h⟩ := ends_bind.1 h
      have ih := written_of_runSteps h
      exact ih
  | .report p :: rest, rows, written, d, d', h => by
    rw [runSteps] at h
    have ih := written_of_runSteps h
    exact ih

theorem report_foldl_add (steps : List BuildStep) (written : Written) :
    (steps.foldl Written.add written).report = steps.foldl BuildReport.add written.report :=
  (List.foldl_hom Written.report fun _ step => by cases step <;> rfl).symm

/-- The report on records behind a batch that is not yet full: batches are full but the last. -/
theorem foldl_add_stepsFrom {size : Nat} :
    ∀ {records : List Record} {pending : List Document} (p : Progress) (r : BuildReport), pending.length < size →
      (stepsFrom size pending p records).foldl BuildReport.add r =
        ⟨r.indexed + (pending.length + (records.filterMap Record.document?).length),
          p.skipped + (records.filterMap Record.error?).length,
          r.batches + (pending.length + (records.filterMap Record.document?).length) ⌈/⌉ size⟩
  | [], pending, p, r, h => by
    unfold stepsFrom
    split
    · rename_i none
      rw [List.isEmpty_iff] at none
      subst none
      simp [BuildReport.add]
    · rename_i some
      have positive : 0 < pending.length := List.length_pos_iff.2 (by simpa using some)
      have one : pending.length ⌈/⌉ size = 1 := by
        rw [Nat.ceilDiv_eq_add_pred_div]
        exact Nat.div_eq_of_lt_le (by omega) (by omega)
      simp [BuildReport.add, Progress.commit, one]
  | .invalid e :: rest, pending, p, r, h => by
    -- nothing waits that did not wait before
    have waiting : (Record.invalid e).document?.toList ++ pending = pending := rfl
    rw [stepsFrom, waiting, if_neg (Nat.not_le.2 h), foldl_add_stepsFrom _ r h]
    simp only [Progress.pass, List.filterMap_cons, Record.document?, Record.error?, List.length_cons,
      BuildReport.mk.injEq, true_and, and_true]
    omega
  | .valid d :: rest, pending, p, r, h => by
    have waiting : (Record.valid d).document?.toList ++ pending = d :: pending := rfl
    rw [stepsFrom, waiting, List.length_cons]
    split
    · -- the batch is full, and the next starts with nothing
      rename_i full
      have size_eq : size = pending.length + 1 := by omega
      rw [List.foldl_cons, List.foldl_cons, foldl_add_stepsFrom _ _ (by simp only [List.length_nil]; omega)]
      simp only [BuildReport.add, Progress.commit, Progress.pass, List.filterMap_cons, Record.document?, Record.error?,
        List.length_cons, List.length_reverse, List.length_nil, Nat.zero_add, BuildReport.mk.injEq, true_and]
      refine ⟨by omega, ?_⟩
      have whole : pending.length + ((rest.filterMap Record.document?).length + 1) =
          (rest.filterMap Record.document?).length + size := by omega
      have another : ((rest.filterMap Record.document?).length + size) ⌈/⌉ size =
          (rest.filterMap Record.document?).length ⌈/⌉ size + 1 := by
        rw [Nat.ceilDiv_eq_add_pred_div, Nat.ceilDiv_eq_add_pred_div, ← Nat.add_div_right _ (by omega)]
        congr 1
        omega
      rw [whole, another]
      omega
    · rw [foldl_add_stepsFrom _ r (by simp only [List.length_cons]; omega)]
      simp only [Progress.pass, List.filterMap_cons, Record.document?, Record.error?, List.length_cons,
        BuildReport.mk.injEq, true_and]
      refine ⟨by omega, ?_⟩
      congr 2
      omega

variable {c : Corpus} {target : String} {batchSize : Nat} {d d' : Disk} {b : Built}

theorem written_of_build (h : Ends (build target c batchSize) d b d') :
    b.toWritten = (buildSteps c batchSize).foldl Written.add ⟨⟨0, 0, 0⟩, []⟩ := by
  obtain ⟨_, _, run⟩ := exists_runSteps_of_build h
  exact written_of_runSteps run

/-- A build that ends well has indexed the documents in full batches but the last, and skipped the errors. -/
theorem report_of_build (h : Ends (build target c batchSize) d b d') :
    b.report = ⟨c.documents.length, c.errors.length, c.documents.length ⌈/⌉ max batchSize 1⟩ := by
  have start : ([] : List Document).length < max batchSize 1 := Nat.lt_of_lt_of_le Nat.one_pos (le_max_right _ _)
  rw [written_of_build h, report_foldl_add, buildSteps, foldl_add_stepsFrom _ _ start]
  simp [Corpus.documents, Corpus.errors]

/-- The size that a build reports is that of the index in its place. -/
theorem size_of_build (h : Ends (build target c batchSize) d b d') : d'.tree.size target = .ok b.size := by
  obtain ⟨d₁, -, hs⟩ := ends_build.1 h
  rw [tree_of_perform_look hs]
  exact congrArg Prod.fst (perform_ok hs)

/-! ## Totals -/

theorem totalOf_eq_sum {α : Type} (count : α → Nat) (list : List α) : totalOf count list = (list.map count).sum := by
  induction list with
  | nil => rfl
  | cons a rest ih => rw [totalOf, ih, List.map_cons, List.sum_cons]

/-- An index counts the documents and their pages as a scan of them does. -/
theorem Rows.Stores.stats {rows : Rows} {documents : List Document} (hs : rows.Stores documents)
    (options : Scan.Options) : (Index.ofRows rows).stats = Scanner.stats ⟨documents, options⟩ := by
  have length : rows.list.length = documents.length := by rw [hs.perm.length_eq, List.length_map]
  have pages : (rows.list.map (·.pages.toNat)).sum = (documents.map (·.pages.toNat)).sum := by
    rw [(hs.perm.map _).sum_eq, List.map_map]
    rfl
  unfold Index.stats Scanner.stats Index.ofRows
  rw [totalOf_eq_sum, totalOf_eq_sum, List.map_map, List.length_map, length, ← pages]
  rfl

/-! ## Contents -/

/--
The batches of a build that ends well go into two empty tables, as its rows one by one do, and joined by id the tables
are the rows that it stores.
-/
theorem exists_tables_of_build (hc : c.Numbered) (h : Ends (build target c batchSize) d b d') {rows : Rows}
    (hs : rows.Stores c.documents) :
    ∃ t : Tables, (batches (buildSteps c batchSize)).foldlM Tables.insertAll? .empty = some t ∧
      Tables.empty.insertAll? c.rows = some t ∧ t.join.Perm rows.list ∧
      t.documents.map (·.id) = t.texts.map (·.1) ∧ (t.documents.map (·.id)).Nodup := by
  obtain ⟨rows', run, hs'⟩ := exists_batches_of_build h
  obtain rfl := hs'.unique hs
  -- what both tables do with the batches, the rows do
  have tables := Rows.joins_empty.foldlM_insertAll? (batches (buildSteps c batchSize)) Rows.stores_empty.ordered
  rw [run] at tables
  cases ht : (batches (buildSteps c batchSize)).foldlM Tables.insertAll? .empty with
  | none => simp [ht] at tables
  | some t =>
    rw [ht] at tables
    obtain ⟨list, perm, rfl⟩ : rows'.Joins t := tables
    have nodup : (list.map (·.id)).Nodup := (perm.map _).nodup_iff.2 (Rows.Ordered.nodup hs.ordered)
    refine ⟨_, rfl, ?_, ?_, ?_, ?_⟩
    · rw [← ht, Tables.foldlM_insertAll?, flatten_batches, committed_buildSteps, hc.rows_eq]
    · rw [Tables.join_ofRows nodup]
      exact perm
    · rw [Tables.ids_documents_ofRows, Tables.ids_texts_ofRows]
    · rw [Tables.ids_documents_ofRows]
      exact nodup

/--
A build that ends well leaves exactly one row for each valid record, with the id of its position, whatever was
on the disk; ids are distinct, and the two tables, into which its batches go one by one, have the same. It
reports the valid and the invalid records, the batches that the valid ones fill, and the size of the index. The
rows, and so the totals, which are those of a scan of the corpus, depend on nothing but the corpus.
-/
theorem build_stores_corpus (hc : c.Loaded) (hv : d.tree.Valid) (h : Ends (build target c batchSize) d b d') :
    ∃ rows : Rows, d'.tree.read target = .ok (.index rows) ∧
      rows.Ordered ∧ rows.list.Perm c.rows ∧ (c.records.length < UInt32.size → rows.list = c.rows) ∧
      (∃ t : Tables, (batches (buildSteps c batchSize)).foldlM Tables.insertAll? .empty = some t ∧
        Tables.empty.insertAll? c.rows = some t ∧ t.join.Perm rows.list ∧
        t.documents.map (·.id) = t.texts.map (·.1) ∧ (t.documents.map (·.id)).Nodup) ∧
      b.report = ⟨c.documents.length, c.errors.length, c.documents.length ⌈/⌉ max batchSize 1⟩ ∧
      d'.tree.size target = .ok b.size ∧
      (∀ options, (Index.ofRows rows).stats = (c.scanner options).stats) ∧
      ∀ (target₁ : String) (size₁ : Nat) (d₁ d₁' : Disk) (b₁ : Built), d₁.tree.Valid →
        Ends (build target₁ c size₁) d₁ b₁ d₁' →
          d₁'.tree.read target₁ = .ok (.index rows) ∧ b₁.report.indexed = b.report.indexed ∧
            b₁.report.skipped = b.report.skipped := by
  obtain ⟨-, rows, hread, hs⟩ := holds_of_build hv h
  have perm : rows.list.Perm c.rows := hc.numbered.rows_eq ▸ hs.perm
  have tables := exists_tables_of_build hc.numbered h hs
  refine ⟨rows, hread, hs.ordered, perm, ?fits, tables, report_of_build h, size_of_build h, hs.stats, ?other⟩
  case fits =>
    intro fits
    have ordered : c.rows.Pairwise fun r s => r.id < s.id := hc.numbered.pairwise_rows fits
    exact perm.eq_of_pairwise (fun r s _ _ hrs hsr => absurd hsr (UInt32.not_lt.2 (UInt32.le_of_lt hrs))) hs.ordered
      ordered
  case other =>
    intro target₁ size₁ d₁ d₁' b₁ hv₁ h₁
    obtain ⟨-, rows₁, hread₁, hs₁⟩ := holds_of_build hv₁ h₁
    rw [report_of_build h, report_of_build h₁]
    exact ⟨hs₁.unique hs ▸ hread₁, rfl, rfl⟩

/-- A document of two pages, a record that is none, and a document with an empty page table. -/
def flatLogs : String :=
  "[[0, 1, \"a.pdf\", \"a.pdf\", 2, \"log\\fend\", [0, 4]], 7, [0, 2, \"b.pdf\", \"b.pdf\", 1, \"memo\", []]]"

/-- They are built in batches of one. -/
theorem build_stores_flatLogs :
    ∃ c, c.Loaded ∧ Corpus.ofText none flatLogs = .ok c ∧ Disk.empty.tree.Valid ∧
      ∃ (b : Built) (d' : Disk) (rows : Rows), Ends (build "search.db" c 1) .empty b d' ∧
        d'.tree.read "search.db" = .ok (.index rows) ∧
        rows.list.map (fun r => (r.id, r.pageOffsets)) = [(1, some "[0,4]"), (3, none)] ∧ b.report = ⟨2, 1, 2⟩ := by
  have read : (Corpus.ofText none flatLogs).toOption.map (fun c =>
      (c.records.length, c.rows.map (fun r => (r.id, r.pageOffsets)), c.documents.map (·.id), c.errors.length)) =
        some (3, [(1, some "[0,4]"), (3, none)], [1, 3], 1) := by
    decide +kernel
  cases h : Corpus.ofText none flatLogs with
  | error e =>
    rw [h] at read
    cases read
  | ok c =>
    rw [h] at read
    obtain ⟨records, read⟩ := Prod.mk.inj (Option.some.inj read)
    obtain ⟨stored, read⟩ := Prod.mk.inj read
    obtain ⟨ids, errors⟩ := Prod.mk.inj read
    have two : c.documents.length = 2 := by rw [← List.length_map (·.id), ids]; rfl
    obtain ⟨b, _, hb⟩ := exists_ends_build (c := c) 1 (by rw [ids]; decide)
    obtain ⟨rows, hread, -, -, fits, -, report, -⟩ := build_stores_corpus (.text h) valid_empty hb
    refine ⟨c, .text h, rfl, valid_empty, b, _, rows, hb, hread, ?_, ?_⟩
    · rw [fits (by rw [records]; decide), stored]
    · rw [report, two, errors]
      rfl

end Index

end Concordance
