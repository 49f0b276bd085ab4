/-
What a build stores. Batch by batch it inserts the rows of the corpus' documents into the staging file, which
then takes the place of the target; so a build that ends well leaves a row for each document and nothing
else, in the order of their ids, which are distinct.
-/
import Concordance.Index.Build
import Concordance.Index.Search
import Concordance.Proofs.Files.Path
import Concordance.Proofs.Files.Task

namespace Concordance.Index

open FileTree

/-! ## Rows -/

namespace Rows

/-- Do rows stand in the order of their ids, which are distinct? -/
def Ordered (rows : Rows) : Prop := rows.list.Pairwise fun r s => r.id < s.id

instance (rows : Rows) : Decidable rows.Ordered := inferInstanceAs (Decidable (List.Pairwise _ _))

theorem Ordered.nodup {rows : Rows} (h : rows.Ordered) : (rows.list.map (·.id)).Nodup := by
  rw [List.Nodup, List.pairwise_map]
  exact h.imp fun h => UInt32.ne_of_lt h

/-- Are these the rows of documents, in order? -/
structure Stores (rows : Rows) (documents : List Document) : Prop where
  ordered : rows.Ordered
  perm : rows.list.Perm (documents.map Row.ofDocument)

theorem stores_empty : empty.Stores [] := ⟨.nil, .nil⟩

theorem pairwise_lt_of_haveDistinctIds :
    ∀ {list : List Row}, list.Pairwise (fun r s => r.id ≤ s.id) → haveDistinctIds list = true →
      list.Pairwise fun r s => r.id < s.id
  | [], _, _ => .nil
  | [r], _, _ => List.pairwise_singleton _ _
  | r :: s :: rest, hp, hd => by
    obtain ⟨hr, hp⟩ := List.pairwise_cons.1 hp
    simp only [haveDistinctIds, Bool.and_eq_true, decide_eq_true_eq] at hd
    have hs := pairwise_lt_of_haveDistinctIds hp hd.2
    have first : r.id < s.id := UInt32.lt_of_le_of_ne (hr s List.mem_cons_self) hd.1
    refine List.pairwise_cons.2 ⟨fun x hx => ?_, hs⟩
    rcases List.mem_cons.1 hx with rfl | hx
    · exact first
    · exact UInt32.lt_trans first ((List.pairwise_cons.1 hs).1 x hx)

theorem pairwise_mergeSort_ids (list : List Row) :
    (list.mergeSort fun r s => r.id ≤ s.id).Pairwise fun r s => r.id ≤ s.id := by
  have sorted := @List.pairwise_mergeSort Row (fun r s => decide (r.id ≤ s.id))
    (fun a b c hab hbc => by simp only [decide_eq_true_eq] at *; exact UInt32.le_trans hab hbc)
    (fun a b => by simp only [Bool.or_eq_true, decide_eq_true_eq]; exact UInt32.le_total _ _) list
  exact sorted.imp fun h => of_decide_eq_true h

theorem ordered_of_insertAll? {rows rows' : Rows} {added : List Row} (h : rows.insertAll? added = some rows') :
    rows'.Ordered := by
  unfold Rows.insertAll? at h
  dsimp only at h
  split at h
  · rename_i distinct
    cases h
    exact pairwise_lt_of_haveDistinctIds (pairwise_mergeSort_ids _) distinct
  · cases h

/-- Rows that can be inserted are stored with those that are there. -/
theorem Stores.insertAll? {rows rows' : Rows} {documents batch : List Document} (h : rows.Stores documents)
    (hi : rows.insertAll? (batch.map Row.ofDocument) = some rows') : rows'.Stores (documents ++ batch) where
  ordered := ordered_of_insertAll? hi
  perm := by
    unfold Rows.insertAll? at hi
    dsimp only at hi
    split at hi
    · cases hi
      rw [List.map_append]
      exact (List.mergeSort_perm ..).trans (h.perm.append_right _)
    · cases hi

end Rows

/-! ## Steps -/

/-- The documents that steps commit. -/
def committed (steps : List BuildStep) : List Document :=
  steps.flatMap fun step =>
    match step with
    | .commit batch => batch
    | .report _ => []

theorem committed_stepsFrom (size : Nat) :
    ∀ (records : List Record) (pending : List Document) (p : Progress),
      committed (stepsFrom size pending p records) = pending.reverse ++ records.filterMap Record.document?
  | [], pending, p => by
    unfold stepsFrom
    split
    · rename_i h
      rw [List.isEmpty_iff] at h
      subst h
      rfl
    · simp [committed]
  | r :: rest, pending, p => by
    have ih := committed_stepsFrom size rest
    have added : (r.document?.toList ++ pending).reverse ++ rest.filterMap Record.document? =
        pending.reverse ++ (r :: rest).filterMap Record.document? := by
      cases r <;> simp [Record.document?, List.filterMap_cons]
    rw [stepsFrom]
    split
    · -- the batch is full: it is committed and reported
      have step : ∀ (batch : List Document) (q : Progress) (steps : List BuildStep),
          committed (.commit batch :: .report q :: steps) = batch ++ committed steps := fun _ _ _ => rfl
      rw [step, ih, ← added]
      rfl
    · rw [ih, added]

/-- A build commits the documents of the corpus, each once and in their order. -/
theorem committed_buildSteps (c : Corpus) (batchSize : Nat) : committed (buildSteps c batchSize) = c.documents :=
  committed_stepsFrom _ _ _ _

/-! ## Files -/

variable {d d' : Disk}

/-- Is there an index with the rows of these documents at a path, in a tree as trees are? -/
def Holds (t : FileTree) (path : String) (documents : List Document) : Prop :=
  t.Valid ∧ ∃ rows : Rows, t.read path = .ok (.index rows) ∧ rows.Stores documents

theorem holds_of_write {path : String} {rows : Rows} {documents : List Document} (hv : d.tree.Valid)
    (hs : rows.Stores documents)
    (hw : (FileStore.write path (.index rows) : StateM Disk (Except FileError Unit)) d = (.ok (), d')) :
    Holds d'.tree path documents :=
  ⟨hv.write (change_ok hw), rows, read_write hv (change_ok hw), hs⟩

theorem holds_of_removeAll {paths : List String} {path : String} {documents : List Document}
    {r : Except FileError Unit} (ha : ∀ other ∈ paths, Apart other path) (hh : Holds d.tree path documents)
    (hr : removeAll (m := StateM Disk) paths d = (r, d')) : Holds d'.tree path documents := by
  refine removeAll_keeps (I := fun t => Holds t path documents) ?_ hr hh
  rintro other ho t t' ⟨hv, rows, hread, hs⟩ hremove
  exact ⟨hv.remove hremove, rows, read_remove (ha other ho) hread hremove, hs⟩

/-- Each step leaves the rows of the documents committed so far. -/
theorem holds_of_runSteps {path : String} {w : Written} :
    ∀ {steps : List BuildStep} {rows : Rows} {written : Written} {documents : List Document} {d : Disk},
      rows.Stores documents → Holds d.tree path documents → Ends (runSteps path rows written steps) d w d' →
      Holds d'.tree path (documents ++ committed steps)
  | [], _, _, documents, d, hs, hh, h => by
    rw [runSteps] at h
    obtain ⟨_, d₁, hw, h⟩ := ends_bind.1 h
    obtain ⟨-, rfl⟩ := ends_pure.1 h
    simpa [committed] using holds_of_write hh.1 hs (ends_storageTask.1 hw)
  | .commit batch :: rest, rows, written, documents, d, hs, hh, h => by
    rw [runSteps] at h
    cases hi : rows.insertAll? (batch.map Row.ofDocument) with
    | none =>
      rw [hi] at h
      exact absurd h not_ends_throw
    | some rows' =>
      rw [hi] at h
      obtain ⟨_, d₁, hw, h⟩ := ends_bind.1 h
      -- the invariant after the batch, and then that of the rest
      have hs' := hs.insertAll? hi
      have hh' := holds_of_write hh.1 hs' (ends_storageTask.1 hw)
      have ih := holds_of_runSteps hs' hh' h
      rw [List.append_assoc] at ih
      exact ih
  | .report p :: rest, rows, written, documents, d, hs, hh, h => by
    rw [runSteps] at h
    have ih := holds_of_runSteps hs hh h
    exact ih

theorem holds_of_writeIndex {path : String} {c : Corpus} {batchSize : Nat} {w : Written}
    (ha : Apart (rollbackPath path) path) (hv : d.tree.Valid) (h : Ends (writeIndex path c batchSize) d w d') :
    Holds d'.tree path c.documents := by
  unfold writeIndex checkLength at h
  obtain ⟨_, d₀, hc, h₀⟩ := ends_bind.1 h
  obtain ⟨_, d₁, hw, h₁⟩ := ends_bind.1 h₀
  obtain ⟨_, d₂, hr, h₂⟩ := ends_bind.1 h₁
  have same : d₀ = d := by
    split at hc
    · exact absurd hc not_ends_throw
    · exact (ends_pure.1 hc).2.symm
  subst same
  have written := holds_of_write hv Rows.stores_empty (ends_storageTask.1 hw)
  have cleaned := holds_of_removeAll (by simpa using ha) written (ends_storageTask.1 hr)
  have run := holds_of_runSteps Rows.stores_empty cleaned h₂
  rw [committed_buildSteps, List.nil_append] at run
  exact run

theorem outcome_cleaningUp {α : Type} (task : ExceptT Error (StateM Disk) α)
    (cleanup : StateM Disk (Except FileError Unit)) (d : Disk) :
    outcome (cleaningUp task cleanup) d =
      match outcome task d with
      | (.ok a, d₁) => (.ok a, d₁)
      | (.error e, d₁) => (.error e, (cleanup d₁).2) := by
  have first : outcome task d = StateT.run task.run d := rfl
  show (StateT.run (task.run >>= _) d : Except Error α × Disk) = _
  rw [StateT.run_bind, first]
  generalize StateT.run task.run d = r
  rcases r with ⟨_ | a, d₁⟩ <;> rfl

/-- What ends well is not cleaned up. -/
theorem ends_cleaningUp {α : Type} {task : ExceptT Error (StateM Disk) α}
    {cleanup : StateM Disk (Except FileError Unit)} {a : α} :
    Ends (cleaningUp task cleanup) d a d' ↔ Ends task d a d' := by
  unfold Ends
  rw [outcome_cleaningUp]
  rcases outcome task d with ⟨e | b, d₁⟩
  · simp
  · simp

/-- An index is put in its place by clearing the way, writing the staging file and publishing it. -/
theorem ends_install {target : String} {c : Corpus} {batchSize : Nat} {w : Written}
    (h : Ends (install target c batchSize) d w d') :
    ∃ d₀ d₁ d₂ : Disk,
      (d₀ = d ∨ ∃ directory,
        (FileStore.createDirectories directory : StateM Disk (Except FileError Unit)) d = (.ok (), d₀)) ∧
      removeIndex (m := StateM Disk) (stagingPath target) d₀ = (.ok (), d₁) ∧
      Ends (writeIndex (stagingPath target) c batchSize) d₁ w d₂ ∧
      Ends (publish (stagingPath target) target) d₂ () d' := by
  -- what follows once the directory is there
  let write : ExceptT Error (StateM Disk) Written := do
    fileTask (removeIndex (stagingPath target))
    cleaningUp
      (do
        let written ← writeIndex (stagingPath target) c batchSize
        publish (stagingPath target) target
        return written)
      (removeIndex (stagingPath target))
  have rest : ∀ d₀, Ends write d₀ w d' → ∃ d₁ d₂ : Disk,
      removeIndex (m := StateM Disk) (stagingPath target) d₀ = (.ok (), d₁) ∧
      Ends (writeIndex (stagingPath target) c batchSize) d₁ w d₂ ∧
      Ends (publish (stagingPath target) target) d₂ () d' := by
    intro d₀ h₀
    obtain ⟨_, d₁, hr, h₁⟩ := ends_bind.1 h₀
    obtain ⟨w', d₂, hw, h₂⟩ := ends_bind.1 (ends_cleaningUp.1 h₁)
    obtain ⟨_, d₃, hp, h₃⟩ := ends_bind.1 h₂
    obtain ⟨rfl, rfl⟩ := ends_pure.1 h₃
    exact ⟨d₁, d₂, ends_fileTask.1 hr, hw, hp⟩
  unfold install at h
  cases hd : Path.parent? target with
  | none =>
    rw [hd] at h
    exact ⟨d, (rest d h).imp fun d₁ h => h.imp fun d₂ h => ⟨.inl rfl, h⟩⟩
  | some directory =>
    rw [hd] at h
    obtain ⟨_, d₀, hm, h₀⟩ := ends_bind.1 h
    exact ⟨d₀, (rest d₀ h₀).imp fun d₁ h => h.imp fun d₂ h => ⟨.inr ⟨directory, ends_fileTask.1 hm⟩, h⟩⟩

/-- A build that ends well has put an index in its place and measured it there. -/
theorem ends_build {target : String} {c : Corpus} {batchSize : Nat} {b : Built} :
    Ends (build target c batchSize) d b d' ↔ ∃ d₁, Ends (install target c batchSize) d b.toWritten d₁ ∧
      (FileStore.size target : StateM Disk (Except FileError Nat)) d₁ = (.ok b.size, d') := by
  unfold build
  rw [ends_bind]
  constructor
  · rintro ⟨w, d₁, hi, h⟩
    obtain ⟨size, d₂, hs, h⟩ := ends_bind.1 h
    obtain ⟨rfl, rfl⟩ := ends_pure.1 h
    exact ⟨d₁, hi, ends_fileTask.1 hs⟩
  · rintro ⟨d₁, hi, hs⟩
    exact ⟨b.toWritten, d₁, hi, ends_bind.2 ⟨b.size, d', ends_fileTask.2 hs, ends_pure.2 ⟨rfl, rfl⟩⟩⟩

/-- A build that ends well has carried out all its steps, from an empty index on. -/
theorem exists_runSteps_of_build {target : String} {c : Corpus} {batchSize : Nat} {b : Built}
    (h : Ends (build target c batchSize) d b d') :
    ∃ d₁ d₂,
      Ends (runSteps (stagingPath target) .empty ⟨⟨0, 0, 0⟩, []⟩ (buildSteps c batchSize)) d₁ b.toWritten d₂ := by
  obtain ⟨_, hi, -⟩ := ends_build.1 h
  obtain ⟨_, _, d₂, -, -, hw, -⟩ := ends_install hi
  unfold writeIndex at hw
  obtain ⟨_, _, -, hw⟩ := ends_bind.1 hw
  obtain ⟨_, _, -, hw⟩ := ends_bind.1 hw
  obtain ⟨_, d₁, -, run⟩ := ends_bind.1 hw
  exact ⟨d₁, d₂, run⟩

/-- Beside the staging file of a target stand its journal and the log of the target. -/
theorem apart_staging (target : String) :
    Apart (rollbackPath (stagingPath target)) (stagingPath target) ∧
      ∀ other ∈ journals target, Apart other (stagingPath target) := by
  have journal : rollbackPath (stagingPath target) = Path.sibling target ".building-journal" := by
    simp [rollbackPath, stagingPath, Path.sibling, String.append_assoc]
  constructor
  · rw [journal]
    exact apart_of_ne target (by decide) (by decide) (by decide) (by decide)
  · intro other ho
    rcases List.mem_cons.1 ho with rfl | ho
    · exact apart_of_ne target (by decide) (by decide) (by decide) (by decide)
    · rw [List.mem_singleton.1 ho]
      exact apart_of_ne target (by decide) (by decide) (by decide) (by decide)

/-- An index that is put in its place holds the rows of the corpus' documents. -/
theorem holds_of_install {target : String} {c : Corpus} {batchSize : Nat} {w : Written} (hv : d.tree.Valid)
    (h : Ends (install target c batchSize) d w d') : Holds d'.tree target c.documents := by
  obtain ⟨d₀, d₁, d₂, hd, hr, hw, hp⟩ := ends_install h
  -- the tree stays as trees are until the staging file is written
  have hv₀ : d₀.tree.Valid := by
    rcases hd with rfl | ⟨directory, hm⟩
    · exact hv
    · have performed : Disk.perform (·.createDirectories directory) d = (.ok (), d₀) := hm
      have made : (d.tree.createDirectories directory).2 = d₀.tree := by rw [perform_ok performed]
      exact made ▸ hv.createDirectories directory
  have hv₁ : d₁.tree.Valid := removeAll_keeps (fun _ _ _ _ hv hr => hv.remove hr) hr hv₀
  have staged := holds_of_writeIndex (apart_staging target).1 hv₁ hw
  unfold publish at hp
  obtain ⟨_, d₃, hj, hp⟩ := ends_bind.1 hp
  obtain ⟨hv₃, rows, hread, hs⟩ := holds_of_removeAll (apart_staging target).2 staged (ends_fileTask.1 hj)
  have hm := change_ok (ends_fileTask.1 hp)
  exact ⟨hv₃.rename hm, rows, read_rename hread hm, hs⟩

/-- A build that ends well leaves the rows of the corpus' documents at the target. -/
theorem holds_of_build {target : String} {c : Corpus} {batchSize : Nat} {b : Built} (hv : d.tree.Valid)
    (h : Ends (build target c batchSize) d b d') : Holds d'.tree target c.documents := by
  obtain ⟨d₁, hi, hs⟩ := ends_build.1 h
  rw [tree_of_perform_look hs]
  exact holds_of_install hv hi

/-! ## Built indexes -/

/-- Is an index what a build of a corpus leaves at its target? -/
def BuiltFrom (ix : Index) (c : Corpus) (batchSize : Nat) : Prop :=
  ∃ (target : String) (d d' : Disk) (b : Built) (rows : Rows),
    d.tree.Valid ∧ Ends (build target c batchSize) d b d' ∧
      d'.tree.read target = .ok (.index rows) ∧ ix = .ofRows rows

/-- An index stores what it was built from. -/
theorem BuiltFrom.stores {ix : Index} {c : Corpus} {batchSize : Nat} (h : ix.BuiltFrom c batchSize) :
    ∃ rows : Rows, ix = .ofRows rows ∧ rows.Stores c.documents := by
  obtain ⟨target, d, d', b, rows, hv, hb, hread, rfl⟩ := h
  obtain ⟨-, rows', hread', hs⟩ := holds_of_build hv hb
  rw [hread] at hread'
  cases hread'
  exact ⟨rows, rfl, hs⟩

/-! ## Builds that end well -/

theorem haveDistinctIds_of_nodup : ∀ {list : List Row}, (list.map (·.id)).Nodup → haveDistinctIds list = true
  | [], _ => rfl
  | [_], _ => rfl
  | r :: s :: rest, h => by
    obtain ⟨hr, hs⟩ := List.nodup_cons.1 h
    have ne : r.id ≠ s.id := fun he => hr (List.mem_cons.2 (.inl he))
    simp [haveDistinctIds, ne, haveDistinctIds_of_nodup hs]

theorem map_id_ofDocument (documents : List Document) :
    (documents.map Row.ofDocument).map (·.id) = documents.map (·.id) := by
  rw [List.map_map]
  rfl

/-- Rows of documents with new ids can be inserted. -/
theorem Rows.Stores.exists_insertAll? {rows : Rows} {documents batch : List Document} (h : rows.Stores documents)
    (hn : ((documents ++ batch).map (·.id)).Nodup) :
    ∃ rows', rows.insertAll? (batch.map Row.ofDocument) = some rows' := by
  have ids : (((rows.list ++ batch.map Row.ofDocument).mergeSort fun r s => r.id ≤ s.id).map (·.id)).Nodup := by
    refine (List.Perm.nodup_iff ?_).2 hn
    refine ((List.mergeSort_perm ..).map _).trans ?_
    rw [List.map_append, List.map_append, map_id_ofDocument, ← map_id_ofDocument documents]
    exact (h.perm.map _).append_right _
  exact ⟨_, if_pos (haveDistinctIds_of_nodup ids)⟩

/-- There is one way to store documents. -/
theorem Rows.Stores.unique {rows rows' : Rows} {documents : List Document} (h : rows.Stores documents)
    (h' : rows'.Stores documents) : rows = rows' := by
  have same := (h.perm.trans h'.perm.symm).eq_of_pairwise
    (fun r s _ _ hrs hsr => absurd hsr (UInt32.not_lt.2 (UInt32.le_of_lt hrs))) h.ordered h'.ordered
  cases rows
  cases rows'
  exact congrArg Rows.mk same

/-- A disk with an index in a file of the working directory, and nothing else. -/
def diskWith (name : String) (rows : Rows) : Disk := ⟨⟨[([name], .file 0)], #[.index rows]⟩, none⟩

/-- Steps that commit documents with distinct ids end well. -/
theorem exists_ends_runSteps :
    ∀ {steps : List BuildStep} {rows : Rows} {documents : List Document} (written : Written),
      rows.Stores documents → ((documents ++ committed steps).map (·.id)).Nodup →
      ∃ w rows', Ends (runSteps "search.db.building" rows written steps) (diskWith "search.db.building" rows) w
        (diskWith "search.db.building" rows')
  | [], rows, documents, written, _, _ => ⟨written, rows, rfl⟩
  | .report p :: rest, rows, documents, written, hs, hn => by
    have later : ((documents ++ committed rest).map (·.id)).Nodup := hn
    obtain ⟨w, rows', h⟩ := exists_ends_runSteps _ hs later
    exact ⟨w, rows', h⟩
  | .commit batch :: rest, rows, documents, written, hs, hn => by
    have split : documents ++ committed (.commit batch :: rest) = (documents ++ batch) ++ committed rest :=
      (List.append_assoc ..).symm
    rw [split] at hn
    have first : ((documents ++ batch).map (·.id)).Nodup := by
      rw [List.map_append] at hn
      exact hn.of_append_left
    obtain ⟨rows₁, hi⟩ := hs.exists_insertAll? first
    obtain ⟨w, rows', h⟩ := exists_ends_runSteps _ (hs.insertAll? hi) hn
    refine ⟨w, rows', ?_⟩
    rw [runSteps, hi]
    -- the staging file is there already, so writing sets its content
    have again : Ends (storageTask (FileStore.write "search.db.building" (.index rows₁)))
        (diskWith "search.db.building" rows) () (diskWith "search.db.building" rows₁) :=
      ends_storageTask.2 rfl
    exact ends_bind.2 ⟨(), _, again, h⟩

/-- A build on a disk without files ends well if the documents of the corpus have distinct ids. -/
theorem exists_ends_build {c : Corpus} (batchSize : Nat) (hn : (c.documents.map (·.id)).Nodup) :
    ∃ b rows, Ends (build "search.db" c batchSize) .empty b (diskWith "search.db" rows) := by
  have committed : ((([] : List Document) ++ committed (buildSteps c batchSize)).map (·.id)).Nodup := by
    rw [committed_buildSteps]
    exact hn
  obtain ⟨w, rows, run⟩ := exists_ends_runSteps ⟨⟨0, 0, 0⟩, []⟩ Rows.stores_empty committed
  have write : Ends (writeIndex "search.db.building" c batchSize) .empty w (diskWith "search.db.building" rows) := by
    unfold writeIndex
    have long : Ends (checkLength "search.db.building") .empty () .empty := rfl
    have new : Ends (storageTask (FileStore.write "search.db.building" (.index .empty))) .empty ()
      (diskWith "search.db.building" .empty) := ends_storageTask.2 rfl
    have journal : Ends (storageTask (removeAll [rollbackPath "search.db.building"]))
      (diskWith "search.db.building" .empty) () (diskWith "search.db.building" .empty) := ends_storageTask.2 rfl
    exact ends_bind.2 ⟨(), _, long, ends_bind.2 ⟨(), _, new, ends_bind.2 ⟨(), _, journal, run⟩⟩⟩
  have publish : Ends (publish "search.db.building" "search.db") (diskWith "search.db.building" rows) ()
    (diskWith "search.db" rows) := rfl
  have cleared : Ends (fileTask (removeIndex "search.db.building")) .empty () .empty := ends_fileTask.2 rfl
  have installed : Ends (install "search.db" c batchSize) .empty w (diskWith "search.db" rows) :=
    ends_bind.2 ⟨(), _, cleared, ends_cleaningUp.2
      (ends_bind.2 ⟨w, _, write, ends_bind.2 ⟨(), _, publish, ends_pure.2 ⟨rfl, rfl⟩⟩⟩)⟩
  exact ⟨⟨w, (FileContent.index rows).size⟩, rows, ends_build.2 ⟨_, installed, rfl⟩⟩

/-- The indexes built from a corpus are those of its rows, whatever the size of a batch. -/
theorem builtFrom_iff {ix : Index} {c : Corpus} {batchSize : Nat} :
    ix.BuiltFrom c batchSize ↔ ∃ rows : Rows, ix = .ofRows rows ∧ rows.Stores c.documents := by
  refine ⟨BuiltFrom.stores, ?_⟩
  rintro ⟨rows, rfl, hs⟩
  have hn : (c.documents.map (·.id)).Nodup := by
    rw [← map_id_ofDocument]
    exact (hs.perm.map _).nodup_iff.1 hs.ordered.nodup
  obtain ⟨b, rows', h⟩ := exists_ends_build batchSize hn
  have hv : Disk.empty.tree.Valid := valid_empty
  obtain ⟨-, rows'', hread, hs''⟩ := holds_of_build hv h
  cases hread
  exact ⟨"search.db", .empty, _, b, rows', hv, h, rfl, by rw [hs''.unique hs]⟩

end Concordance.Index
