/-
What every corpus has in common, whether it was read from a text, in either format, or made of documents. The
record at a position is a document that is numbered by the position and whose page table fits its text, or an
error that names the position. In the full format files are left out before positions are counted, and the table
of each document is the one derived from its text.
-/
import Concordance.Corpus.Load
import Concordance.Proofs.Page

namespace Concordance

/-- A file's document has the table derived from its text. -/
theorem Document.pageOffsets_of_ofFile {number : UInt32} {file : Json} {d : Document}
    (h : Document.ofFile number file = .ok d) : d.pageOffsets = some (Page.deriveOffsets d.text.toList) := by
  simp only [Document.ofFile, bind, Except.bind] at h
  repeat' split at h
  all_goals cases h
  rfl

/-! ## Single records -/

namespace Record

/--
Is a record one for a position: a document with the number of the position, counted from 1, and with no page table
but one that fits its text, or an error that names the position?
-/
def IsAt (position : Nat) : Record → Prop
  | .valid d =>
    d.id = UInt32.ofNat (position + 1) ∧ ∀ offsets, d.pageOffsets = some offsets → Page.Fits offsets d.text.length
  | .invalid e => e.position = position

/-- Accepting a document drops its table if it does not fit. -/
theorem isAt_accept (position : Nat) (d : Document) : (accept position d).IsAt position := by
  refine ⟨rfl, fun offsets h => ?_⟩
  have passes := (Option.filter_eq_some_iff.1 h).2
  exact Page.fault?_eq_none_iff.1 (Option.isNone_iff_eq_none.1 passes)

theorem isAt_ofDecoded (position : Nat) (item : Json) (decoded : Except Json.Fault Document) :
    (ofDecoded position item decoded).IsAt position := by
  cases decoded with
  | ok d => exact isAt_accept position d
  | error fault => rfl

/-- The check drops no derived table. -/
theorem pageOffsets_of_accept {position : Nat} {d e : Document}
    (hd : d.pageOffsets = some (Page.deriveOffsets d.text.toList)) (h : (accept position d).document? = some e) :
    e.pageOffsets = some (Page.deriveOffsets e.text.toList) := by
  cases h
  show d.pageOffsets.filter _ = some (Page.deriveOffsets d.text.toList)
  have length : d.text.length = d.text.toList.length := String.length_toList.symm
  rw [hd, Option.filter_some, length, Page.fault?_deriveOffsets]
  rfl

end Record

namespace Corpus

/-! ## How corpora come about -/

/-- Was a corpus read from a text, in either format, or made of documents? -/
inductive Loaded : Corpus → Prop where
  | text {source : Option String} {text : String} {c : Corpus} (h : ofText source text = .ok c) : Loaded c
  | documents (documents : List Document) : Loaded (.ofDocuments documents)

/-- The corpus that a text holds has the records of the items of an array, or of the files of its datasets. -/
theorem ofText_cases {source : Option String} {text : String} {c : Corpus} (h : ofText source text = .ok c) :
    (∃ items, Json.parse? text = some (.array items) ∧ c = ⟨flatRecords items, .flat, source⟩) ∨
      ∃ fields entries ds, Json.parse? text = some (.object fields) ∧
        Json.lookup? "datasets" fields = some (.array entries) ∧ datasets 0 entries = .ok ds ∧
          c = ⟨fullRecords ds, .full, source⟩ := by
  unfold ofText at h
  split at h
  · cases h
  · rename_i value parsed
    split at h
    · cases h
    · rename_i read hread
      cases h
      cases value with
      | array items =>
        cases hread
        exact .inl ⟨items, parsed, rfl⟩
      | object fields =>
        simp only [ofJson] at hread
        split at hread
        · rename_i entries hentries
          cases hds : datasets 0 entries with
          | error e =>
            rw [hds] at hread
            cases hread
          | ok ds =>
            rw [hds] at hread
            cases hread
            exact .inr ⟨fields, entries, ds, parsed, hentries, hds, rfl⟩
        · cases hread
      | _ => cases hread

/-- Is every record of a corpus one for its position? -/
def InPlace (c : Corpus) : Prop := ∀ (position : Nat) (r : Record), c.records[position]? = some r → r.IsAt position

/-- Records that are made from items one by one are records for their positions. -/
theorem inPlace_mapIdx {α : Type} {make : Nat → α → Record} (h : ∀ position item, (make position item).IsAt position)
    (items : List α) (format : CorpusFormat) (source : Option String) :
    InPlace ⟨items.mapIdx make, format, source⟩ := by
  intro position r hr
  rw [List.getElem?_mapIdx] at hr
  obtain ⟨item, -, rfl⟩ := Option.map_eq_some_iff.1 hr
  exact h position item

theorem Loaded.inPlace {c : Corpus} (h : c.Loaded) : c.InPlace := by
  cases h with
  | text h =>
    rcases ofText_cases h with ⟨items, -, rfl⟩ | ⟨_, _, ds, -, -, -, rfl⟩
    · exact inPlace_mapIdx (fun _ _ => Record.isAt_ofDecoded _ _ _) items .flat _
    · exact inPlace_mapIdx (fun _ _ => Record.isAt_ofDecoded _ _ _) (extractedFiles ds) .full _
  | documents documents => exact inPlace_mapIdx Record.isAt_accept documents .flat none

/-- In the full format every document has the table derived from its text. -/
theorem pageOffsets_of_full {source : Option String} {text : String} {c : Corpus} (h : ofText source text = .ok c)
    (hf : c.format = .full) {d : Document} (hd : d ∈ c.documents) :
    d.pageOffsets = some (Page.deriveOffsets d.text.toList) := by
  rcases ofText_cases h with ⟨items, -, rfl⟩ | ⟨_, _, ds, -, -, -, rfl⟩
  · cases hf
  · obtain ⟨record, hr, hd⟩ := List.mem_filterMap.1 hd
    obtain ⟨position, hlt, rfl⟩ := List.mem_mapIdx.1 hr
    cases hfile : Document.ofFile (extractedFiles ds)[position].1 (extractedFiles ds)[position].2 with
    | error fault =>
      simp only [hfile, Record.ofDecoded] at hd
      cases hd
    | ok file =>
      simp only [hfile, Record.ofDecoded] at hd
      exact Record.pageOffsets_of_accept (Document.pageOffsets_of_ofFile hfile) hd

/-! ## Numbers -/

/-- Is the id of each document the position of its record, counted from 1? -/
def Numbered (c : Corpus) : Prop :=
  ∀ position d, c.records[position]? = some (.valid d) → d.id = UInt32.ofNat (position + 1)

theorem InPlace.numbered {c : Corpus} (h : c.InPlace) : c.Numbered := fun position _ hd => (h position _ hd).1

theorem Loaded.numbered {c : Corpus} (h : c.Loaded) : c.Numbered := h.inPlace.numbered

/-- A document's table, if it has one, fits its text. -/
theorem InPlace.fits {c : Corpus} (h : c.InPlace) {d : Document} (hd : d ∈ c.documents) {offsets : List Nat}
    (ho : d.pageOffsets = some offsets) : Page.Fits offsets d.text.length := by
  obtain ⟨r, hr, hdr⟩ := List.mem_filterMap.1 hd
  obtain ⟨position, hp⟩ := List.mem_iff_getElem?.1 hr
  cases r with
  | invalid e => cases hdr
  | valid e =>
    cases hdr
    exact (h position _ hp).2 offsets ho

/-- Every record is a document or an error. -/
theorem length_documents_add_errors (c : Corpus) : c.documents.length + c.errors.length = c.records.length := by
  unfold documents errors
  induction c.records with
  | nil => rfl
  | cons r rest ih =>
    cases r <;> simp only [List.filterMap_cons, Record.document?, Record.error?, List.length_cons] <;> omega

/-- As long as positions fit into ids, the ids of documents rise from record to record. -/
theorem pairwise_ids_from {records : List Record} (start : Nat) (hsize : start + records.length < UInt32.size)
    (h : ∀ i d, records[i]? = some (.valid d) → d.id = UInt32.ofNat (start + i + 1)) :
    (records.filterMap Record.document?).Pairwise (·.id < ·.id) ∧
      ∀ d ∈ records.filterMap Record.document?, start < d.id.toNat := by
  induction records generalizing start with
  | nil => exact ⟨.nil, fun d hd => nomatch hd⟩
  | cons r rest ih =>
    rw [List.length_cons] at hsize
    have later : ∀ i d, rest[i]? = some (.valid d) → d.id = UInt32.ofNat (start + 1 + i + 1) := by
      intro i d hd
      rw [h (i + 1) d (by simpa using hd)]
      congr 1
      omega
    obtain ⟨rising, above⟩ := ih (start + 1) (by omega) later
    cases r with
    | invalid e => exact ⟨rising, fun d hd => Nat.lt_of_succ_lt (above d hd)⟩
    | valid d =>
      have first : d.id.toNat = start + 1 := by
        rw [h 0 d rfl]
        exact UInt32.toNat_ofNat_of_lt' (by omega)
      refine ⟨List.pairwise_cons.2 ⟨fun e he => ?_, rising⟩, List.forall_mem_cons.2 ⟨by omega, fun e he => ?_⟩⟩
      · rw [UInt32.lt_iff_toNat_lt, first]
        exact above e he
      · exact Nat.lt_of_succ_lt (above e he)

theorem Numbered.pairwise_ids {c : Corpus} (h : c.Numbered) (hsize : c.records.length < UInt32.size) :
    c.documents.Pairwise (·.id < ·.id) :=
  (pairwise_ids_from 0 (by omega) fun i d hd => by simpa using h i d hd).1

/--
A corpus of fewer than `2 ^ 32` records is well numbered: the record at each position is a document with the number
of the position, counted from 1, or an error that names the position, so ids rise and are distinct. The page table
of a document, if it has one, fits its text, and in the full format it is the one derived from the text.
-/
theorem loaded_well_numbered {c : Corpus} (hc : c.Loaded) (hsize : c.records.length < UInt32.size) :
    (∀ (position : Nat) (r : Record), c.records[position]? = some r →
      (∃ d, r = .valid d ∧ d.id.toNat = position + 1) ∨ ∃ e, r = .invalid e ∧ e.position = position) ∧
    c.documents.Pairwise (·.id < ·.id) ∧ (c.documents.map (·.id)).Nodup ∧
    c.documents.length + c.errors.length = c.records.length ∧
    (∀ d ∈ c.documents, ∀ offsets, d.pageOffsets = some offsets →
      offsets = [] ∨ offsets.head? = some 0 ∧ offsets.Pairwise (· ≤ ·) ∧
        ∀ last ∈ offsets.getLast?, last ≤ d.text.length + 1) ∧
    (c.format = .full → ∀ d ∈ c.documents, d.pageOffsets = some (Page.deriveOffsets d.text.toList)) := by
  have rising : c.documents.Pairwise (·.id < ·.id) := hc.numbered.pairwise_ids hsize
  refine ⟨fun position r hr => ?_, rising, ?_, c.length_documents_add_errors,
    fun d hd offsets ho => hc.inPlace.fits hd ho, fun hf d hd => ?_⟩
  · have here := hc.inPlace position r hr
    have inside : position < c.records.length := (List.getElem?_eq_some_iff.1 hr).1
    cases r with
    | valid d =>
      refine .inl ⟨d, rfl, ?_⟩
      rw [here.1]
      exact UInt32.toNat_ofNat_of_lt' (by omega)
    | invalid e => exact .inr ⟨e, rfl, here⟩
  · rw [List.Nodup, List.pairwise_map]
    exact rising.imp fun h => UInt32.ne_of_lt h
  · cases hc with
    | text h => exact pageOffsets_of_full h hf hd
    | documents _ => cases hf

/-- A file with a page break at its end, one without text, one without a path, and a second dataset. -/
def shelf : String :=
  "\x7b\"datasets\":[[3,[\x7b\"filename\":\"a\",\"filepath\":\"a\",\"full_text\":\"\u00e9\\fx\\f\"\x7d," ++
    "\x7b\x7d,\x7b\"full_text\":\"x\"\x7d]]," ++
    "[4,[\x7b\"filename\":\"b\",\"filepath\":\"b\",\"full_text\":\"x\"\x7d]]]\x7d"

/-- The file without text leaves no record, and the one without a path leaves a gap in the ids. -/
theorem loaded_well_numbered_shelf :
    ∃ c, ofText none shelf = .ok c ∧ c.Loaded ∧ c.records.length < UInt32.size ∧ c.format = .full ∧
      c.documents.map (fun d => (d.id, d.pageOffsets)) = [(1, some [0, 2, 4]), (3, some [0])] ∧
      (c.documents.map (·.id)).Nodup ∧ c.documents.length + c.errors.length = 3 ∧
      ∀ d ∈ c.documents, d.pageOffsets = some (Page.deriveOffsets d.text.toList) := by
  have read : (ofText none shelf).toOption.map (fun c =>
      (c.records.length, c.format, c.documents.map fun d => (d.id, d.pageOffsets))) =
        some (3, .full, [(1, some [0, 2, 4]), (3, some [0])]) := by
    decide +kernel
  cases h : ofText none shelf with
  | error e =>
    rw [h] at read
    cases read
  | ok c =>
    rw [h] at read
    obtain ⟨records, read⟩ := Prod.mk.inj (Option.some.inj read)
    obtain ⟨format, stored⟩ := Prod.mk.inj read
    have size : c.records.length < UInt32.size := by rw [records]; decide
    obtain ⟨-, -, distinct, count, -, derived⟩ := loaded_well_numbered (.text h) size
    exact ⟨c, rfl, .text h, size, format, stored, distinct, records ▸ count, derived format⟩

end Corpus

end Concordance
