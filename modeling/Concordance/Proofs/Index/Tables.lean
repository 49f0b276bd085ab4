/-
The two tables of an index. One has what is known of each document but its text, and one the texts that are
searched; both are keyed by the id of the document, and neither takes a key twice. A row goes into the one
and then into the other. The rows of an index are the two tables joined: a batch of rows goes into them
exactly if it goes into both tables, which then have the same ids. So a build that ends well has put each of
its batches into both tables.
-/
import Concordance.Proofs.Index.Stored

namespace Concordance.Index

/-- What the table of documents has of one. -/
structure Details where
  id : UInt32
  dataset : UInt32
  filename : String
  filepath : String
  pages : UInt32
  pageOffsets : Option String
deriving DecidableEq, Repr

def Row.details (r : Row) : Details := ⟨r.id, r.dataset, r.filename, r.filepath, r.pages, r.pageOffsets⟩

/-- The table of documents, and the table of texts by id, each in the order of insertion. -/
structure Tables where
  documents : List Details
  texts : List (UInt32 × String)
deriving DecidableEq, Repr

namespace Tables

def empty : Tables := ⟨[], []⟩

/-- Inserts a document, unless its id is taken. -/
def insertDetails? (t : Tables) (x : Details) : Option Tables :=
  if x.id ∈ t.documents.map (·.id) then none else some { t with documents := t.documents ++ [x] }

/-- Inserts a text, unless its id is taken. -/
def insertText? (t : Tables) (id : UInt32) (text : String) : Option Tables :=
  if id ∈ t.texts.map (·.1) then none else some { t with texts := t.texts ++ [(id, text)] }

def insert? (t : Tables) (r : Row) : Option Tables := do (← t.insertDetails? r.details).insertText? r.id r.text

/-- Inserts rows one after the other, unless some id is taken. -/
def insertAll? (t : Tables) (added : List Row) : Option Tables := added.foldlM insert? t

/-- The tables of rows. -/
def ofRows (rows : List Row) : Tables := ⟨rows.map Row.details, rows.map fun r => (r.id, r.text)⟩

/-- The rows that the tables give when they are joined by id. -/
def join (t : Tables) : List Row :=
  t.documents.filterMap fun x =>
    (t.texts.lookup x.id).map fun text => ⟨x.id, x.dataset, x.filename, x.filepath, x.pages, x.pageOffsets, text⟩

/-! ## Tables of the same rows -/

variable {rows added : List Row}

theorem ids_documents_ofRows : (ofRows rows).documents.map (·.id) = rows.map (·.id) := by
  rw [ofRows, List.map_map]
  rfl

theorem ids_texts_ofRows : (ofRows rows).texts.map (·.1) = rows.map (·.id) := by
  rw [ofRows, List.map_map]
  rfl

/-- A row goes into both tables, or into neither. -/
theorem insert?_ofRows (r : Row) :
    (ofRows rows).insert? r = if r.id ∈ rows.map (·.id) then none else some (ofRows (rows ++ [r])) := by
  unfold insert? insertDetails?
  rw [ids_documents_ofRows]
  by_cases taken : r.id ∈ rows.map (·.id)
  · rw [if_pos taken, if_pos (show r.details.id ∈ _ from taken)]
    rfl
  · rw [if_neg taken, if_neg (show r.details.id ∉ _ from taken)]
    show insertText? _ r.id r.text = _
    unfold insertText?
    rw [if_neg (show r.id ∉ (ofRows rows).texts.map (·.1) from ids_texts_ofRows ▸ taken)]
    simp [ofRows]

/-- Rows go into the tables exactly if all ids are distinct. -/
theorem insertAll?_ofRows (hn : (rows.map (·.id)).Nodup) :
    (ofRows rows).insertAll? added =
      if ((rows ++ added).map (·.id)).Nodup then some (ofRows (rows ++ added)) else none := by
  induction added generalizing rows with
  | nil =>
    rw [List.append_nil, if_pos hn]
    rfl
  | cons r rest ih =>
    have step : (ofRows rows).insertAll? (r :: rest) = ((ofRows rows).insert? r).bind (insertAll? · rest) := rfl
    have regroup : rows ++ r :: rest = rows ++ [r] ++ rest := by simp
    rw [step, insert?_ofRows]
    by_cases taken : r.id ∈ rows.map (·.id)
    · -- the id occurs in front and again
      have twice : ¬ ((rows ++ r :: rest).map (·.id)).Nodup := by
        rw [List.map_append, List.map_cons]
        exact fun h => List.disjoint_of_nodup_append h taken List.mem_cons_self
      rw [if_pos taken, if_neg twice]
      rfl
    · have distinct : ((rows ++ [r]).map (·.id)).Nodup := by
        rw [List.map_append, List.map_singleton]
        refine hn.append (List.nodup_singleton _) ?_
        rw [List.disjoint_singleton]
        exact taken
      rw [if_neg taken, regroup]
      exact ih distinct

/-- Joined by id, the tables of rows with distinct ids give the rows. -/
theorem join_ofRows (hn : (rows.map (·.id)).Nodup) : (ofRows rows).join = rows := by
  have found : ∀ r ∈ rows, (rows.map fun r => (r.id, r.text)).lookup r.id = some r.text := by
    induction rows with
    | nil => exact fun _ h => nomatch h
    | cons s rest ih =>
      obtain ⟨hs, hrest⟩ := List.nodup_cons.1 hn
      intro r hr
      rw [List.map_cons, List.lookup_cons]
      rcases List.mem_cons.1 hr with rfl | hr
      · simp
      · have ne : (r.id == s.id) = false := by
          rw [beq_eq_false_iff_ne]
          exact fun he => hs (List.mem_map.2 ⟨r, hr, he⟩)
        rw [ne]
        exact ih hrest r hr
  unfold join ofRows
  rw [List.filterMap_map]
  calc rows.filterMap _ = rows.filterMap some := by
        refine List.filterMap_congr fun r hr => ?_
        show Option.map _ (List.lookup r.id _) = _
        rw [found r hr]
        rfl
    _ = rows := List.filterMap_some

end Tables

/-! ## Rows as joined tables -/

/-- Do the tables hold the rows of an index, each in both tables? -/
def Rows.Joins (rows : Rows) (t : Tables) : Prop := ∃ list : List Row, list.Perm rows.list ∧ t = .ofRows list

theorem Rows.joins_empty : Rows.empty.Joins .empty := ⟨[], .nil, rfl⟩

/-- The rows of an index take a batch exactly if both tables do, and then they are the two tables again. -/
theorem Rows.Joins.insertAll? {rows : Rows} {t : Tables} (h : rows.Joins t) (ho : rows.Ordered) (added : List Row) :
    match rows.insertAll? added, t.insertAll? added with
    | some rows', some t' => rows'.Joins t'
    | none, none => True
    | _, _ => False := by
  obtain ⟨list, hp, rfl⟩ := h
  have hn : (list.map (·.id)).Nodup := (hp.map _).nodup_iff.2 ho.nodup
  let all := (rows.list ++ added).mergeSort fun r s => r.id ≤ s.id
  have same : (list ++ added).Perm all := (hp.append_right _).trans (List.mergeSort_perm ..).symm
  rw [Tables.insertAll?_ofRows hn]
  unfold Rows.insertAll?
  dsimp only
  by_cases distinct : haveDistinctIds all = true
  · -- sorted rows without the same id twice in a row have distinct ids
    have sorted : all.Pairwise fun r s => r.id ≤ s.id := pairwise_mergeSort_ids _
    have ordered : (Rows.mk all).Ordered := Rows.pairwise_lt_of_haveDistinctIds sorted distinct
    have nodup : ((list ++ added).map (·.id)).Nodup := (same.map _).nodup_iff.2 ordered.nodup
    rw [if_pos distinct, if_pos nodup]
    exact ⟨_, same, rfl⟩
  · have twice : ¬ ((list ++ added).map (·.id)).Nodup :=
      fun h => distinct (haveDistinctIds_of_nodup ((same.map _).nodup_iff.1 h))
    rw [if_neg distinct, if_neg twice]
    trivial

/-- The same holds of batches one after the other. -/
theorem Rows.Joins.foldlM_insertAll? :
    ∀ (batches : List (List Row)) {rows : Rows} {t : Tables}, rows.Joins t → rows.Ordered →
      match batches.foldlM Rows.insertAll? rows, batches.foldlM Tables.insertAll? t with
      | some rows', some t' => rows'.Joins t'
      | none, none => True
      | _, _ => False
  | [], _, _, h, _ => h
  | batch :: rest, rows, t, h, ho => by
    have step := h.insertAll? ho batch
    simp only [List.foldlM_cons, Option.bind_eq_bind]
    cases hr : rows.insertAll? batch with
    | none =>
      cases ht : t.insertAll? batch with
      | none => trivial
      | some t₁ => simp [hr, ht] at step
    | some rows₁ =>
      cases ht : t.insertAll? batch with
      | none => simp [hr, ht] at step
      | some t₁ =>
        simp only [hr, ht] at step
        exact foldlM_insertAll? rest step (Rows.ordered_of_insertAll? hr)

/-! ## The batches of a build -/

/-- The rows of each batch that steps commit. -/
def batches (steps : List BuildStep) : List (List Row) :=
  steps.filterMap fun
    | .commit batch => some (batch.map Row.ofDocument)
    | .report _ => none

theorem flatten_batches (steps : List BuildStep) :
    (batches steps).flatten = (committed steps).map Row.ofDocument := by
  induction steps with
  | nil => rfl
  | cons step rest ih =>
    cases step with
    | commit batch =>
      show batch.map Row.ofDocument ++ (batches rest).flatten = (batch ++ committed rest).map Row.ofDocument
      rw [ih, List.map_append]
    | report p => exact ih

/-- Where the batches end makes no difference to the tables. -/
theorem Tables.foldlM_insertAll? (batches : List (List Row)) (t : Tables) :
    batches.foldlM Tables.insertAll? t = t.insertAll? batches.flatten := by
  induction batches generalizing t with
  | nil => rfl
  | cons batch rest ih =>
    have split : t.insertAll? (batch ++ rest.flatten) = (t.insertAll? batch).bind (insertAll? · rest.flatten) :=
      List.foldlM_append
    rw [List.foldlM_cons, List.flatten_cons, split]
    exact congrArg (Option.bind _) (funext fun t₁ => ih t₁)

/-- Steps that end well have inserted their batches one after the other. -/
theorem exists_batches_of_runSteps {path : String} {w : Written} {d' : Disk} :
    ∀ {steps : List BuildStep} {rows : Rows} {written : Written} {documents : List Document} {d : Disk},
      rows.Stores documents → Ends (runSteps path rows written steps) d w d' →
      ∃ rows', (batches steps).foldlM Rows.insertAll? rows = some rows' ∧ rows'.Stores (documents ++ committed steps)
  | [], rows, written, documents, d, hs, _ => ⟨rows, rfl, by simpa [committed] using hs⟩
  | .commit batch :: rest, rows, written, documents, d, hs, h => by
    rw [runSteps] at h
    cases hi : rows.insertAll? (batch.map Row.ofDocument) with
    | none =>
      rw [hi] at h
      exact absurd h not_ends_throw
    | some rows₁ =>
      rw [hi] at h
      obtain ⟨_, d₁, -, h⟩ := ends_bind.1 h
      obtain ⟨rows', run, stores⟩ := exists_batches_of_runSteps (hs.insertAll? hi) h
      refine ⟨rows', ?_, by rwa [List.append_assoc] at stores⟩
      show (rows.insertAll? (batch.map Row.ofDocument)).bind _ = _
      rw [hi]
      exact run
  | .report p :: rest, rows, written, documents, d, hs, h => by
    rw [runSteps] at h
    have ih := exists_batches_of_runSteps hs h
    exact ih

/-- A build that ends well has inserted its batches one after the other into an empty index. -/
theorem exists_batches_of_build {target : String} {c : Corpus} {batchSize : Nat} {d d' : Disk} {b : Built}
    (h : Ends (build target c batchSize) d b d') :
    ∃ rows, (batches (buildSteps c batchSize)).foldlM Rows.insertAll? .empty = some rows ∧
      rows.Stores c.documents := by
  obtain ⟨_, _, run⟩ := exists_runSteps_of_build h
  obtain ⟨rows, inserted, stores⟩ := exists_batches_of_runSteps Rows.stores_empty run
  rw [committed_buildSteps, List.nil_append] at stores
  exact ⟨rows, inserted, stores⟩

end Concordance.Index
