/-
The full format. It is read all or not at all: the first dataset entry that does not fit keeps the corpus from being
read. If all fit, the files are taken one after another, dataset by dataset. A file with text and without an error
leaves the next record, a document if it fits and an error if it does not, and any other file leaves nothing. So it
does not matter how the files of a dataset are spread over entries with its number.
-/
import Concordance.Proofs.Corpus.Decoded
import Concordance.Proofs.Corpus.Records

namespace Concordance

open Json

/-! ## Entries -/

/-- Does an entry fit a dataset: an object, or an array of one or two items in the order of the fields? -/
def Dataset.Fits (entry : Json) : Prop :=
  IsRecord fieldNames 1
    (fun fields => (∃ v ∈ lookup? "dataset_number" fields, v.IsUInt32) ∧ ∀ v ∈ lookup? "files" fields, v.IsArray) entry

theorem Dataset.fits_iff {entry : Json} : Fits entry ↔ ∃ d, Describes entry d := by
  refine isRecord_iff_exists fun {fields} => ?_
  rw [exists_mem_iff isUInt32_iff, forall_mem_iff (P := IsArray) Iff.rfl []]
  constructor
  · rintro ⟨⟨number, hnumber⟩, files, hfiles⟩
    exact ⟨⟨number, files⟩, hnumber, hfiles⟩
  · rintro ⟨d, hnumber, hfiles⟩
    exact ⟨⟨_, hnumber⟩, _, hfiles⟩

theorem Dataset.Describes.unique {entry : Json} {d other : Dataset} (h : Describes entry d)
    (hother : Describes entry other) : d = other := by
  have read := ofJson_eq_ok_iff.2 h
  rw [ofJson_eq_ok_iff.2 hother] at read
  exact (Except.ok.inj read).symm

theorem Dataset.not_fits_of_error {entry : Json} {fault : Fault} (h : ofJson entry = .error fault) : ¬ Fits entry := by
  intro fits
  obtain ⟨d, hd⟩ := fits_iff.1 fits
  rw [ofJson_eq_ok_iff.2 hd] at h
  cases h

theorem Dataset.fits_of_forall₂ {entries : List Json} {ds : List Dataset} (h : List.Forall₂ Describes entries ds) :
    ∀ entry ∈ entries, Fits entry := by
  induction h with
  | nil => exact fun _ hm => nomatch hm
  | cons described _ ih => exact List.forall_mem_cons.2 ⟨fits_iff.2 ⟨_, described⟩, ih⟩

namespace Corpus

theorem datasets_cons (index : Nat) {entry : Json} {d : Dataset} (h : Dataset.Describes entry d) (rest : List Json) :
    datasets index (entry :: rest) = (datasets (index + 1) rest).map (d :: ·) := by
  rw [datasets, Dataset.ofJson_eq_ok_iff.2 h]

theorem datasets_eq_ok_iff {index : Nat} {entries : List Json} {ds : List Dataset} :
    datasets index entries = .ok ds ↔ List.Forall₂ Dataset.Describes entries ds := by
  induction entries generalizing index ds with
  | nil => simp [datasets, eq_comm]
  | cons entry rest ih =>
    constructor
    · intro h
      cases hd : Dataset.ofJson entry with
      | error fault =>
        rw [datasets, hd] at h
        cases h
      | ok d =>
        have described := Dataset.ofJson_eq_ok_iff.1 hd
        rw [datasets_cons index described, map_eq_ok_iff] at h
        obtain ⟨others, hothers, rfl⟩ := h
        exact .cons described (ih.1 hothers)
    · rintro ⟨⟩
      rename_i d ds described others
      rw [datasets_cons index described, ih.2 others]
      rfl

/-- The entry that keeps the corpus from being read is the first that does not fit, and the error names its index. -/
theorem datasets_eq_error {index : Nat} {entries : List Json} {e : FormatError}
    (h : datasets index entries = .error e) :
    ∃ before entry after fault, entries = before ++ entry :: after ∧ (∀ b ∈ before, Dataset.Fits b) ∧
      Dataset.ofJson entry = .error fault ∧ e = .badDataset (index + before.length) fault := by
  induction entries generalizing index with
  | nil => cases h
  | cons entry rest ih =>
    cases hd : Dataset.ofJson entry with
    | error fault =>
      rw [datasets, hd] at h
      cases h
      exact ⟨[], entry, rest, fault, rfl, fun _ hb => (nomatch hb), hd, rfl⟩
    | ok d =>
      have described := Dataset.ofJson_eq_ok_iff.1 hd
      rw [datasets_cons index described] at h
      cases hrest : datasets (index + 1) rest with
      | ok ds =>
        rw [hrest] at h
        cases h
      | error later =>
        rw [hrest] at h
        cases h
        obtain ⟨before, bad, after, fault, rfl, fits, unfit, rfl⟩ := ih hrest
        refine ⟨entry :: before, bad, after, fault, rfl, ?_, unfit, ?_⟩
        · exact List.forall_mem_cons.2 ⟨Dataset.fits_iff.2 ⟨d, described⟩, fits⟩
        · rw [List.length_cons]
          congr 1
          omega

/-- Apart from which entry is named, each entry is read by itself. -/
theorem toOption_datasets (index : Nat) (entries : List Json) :
    (datasets index entries).toOption = entries.mapM fun e => (Dataset.ofJson e).toOption := by
  induction entries generalizing index with
  | nil => rfl
  | cons entry rest ih =>
    rw [List.mapM_cons, ← ih (index + 1), datasets]
    cases Dataset.ofJson entry with
    | error fault => rfl
    | ok d => cases datasets (index + 1) rest <;> rfl

end Corpus

/-! ## Files -/

/-- Does a file leave a record: is there text, and no error? -/
def Json.IsUsable (file : Json) : Prop :=
  file.field? "error" = none ∧ ∃ s, file.field? "full_text" = some (.text s) ∧ s ≠ ""

theorem isExtracted_iff {file : Json} : isExtracted file = true ↔ file.IsUsable := by
  unfold isExtracted IsUsable
  rw [Bool.and_eq_true, Option.isNone_iff_eq_none]
  refine and_congr_right fun _ => ?_
  cases file.field? "full_text" with
  | none => simp
  | some v => cases v <;> simp [Json.text?]

/-- Does a file, besides its text, have the types of a document's fields? -/
structure Document.FitsFile (file : Json) : Prop where
  filename : ∃ v ∈ file.field? "filename", v.IsText
  filepath : ∃ v ∈ file.field? "filepath", v.IsText
  pages : ∀ v ∈ file.field? "pages", v.IsUInt32

theorem Document.DescribedByFile.fits {number : UInt32} {file : Json} {d : Document}
    (h : DescribedByFile number file d) : FitsFile file :=
  ⟨(exists_mem_iff Iff.rfl).2 ⟨_, h.filename⟩, (exists_mem_iff Iff.rfl).2 ⟨_, h.filepath⟩,
    (forall_mem_iff isUInt32_iff 0).2 ⟨_, h.pages⟩⟩

/-- A usable file that fits describes a document. -/
theorem Document.exists_describedByFile {file : Json} (usable : file.IsUsable) (h : FitsFile file) (number : UInt32) :
    ∃ d : Document, d.id = 0 ∧ DescribedByFile number file d := by
  obtain ⟨-, text, htext, -⟩ := usable
  obtain ⟨filename, hfilename⟩ := (exists_mem_iff Iff.rfl).1 h.filename
  obtain ⟨filepath, hfilepath⟩ := (exists_mem_iff Iff.rfl).1 h.filepath
  obtain ⟨pages, hpages⟩ := (forall_mem_iff isUInt32_iff 0).1 h.pages
  exact ⟨⟨0, number, filename, filepath, pages, text, some (Page.deriveOffsets text.toList)⟩, rfl, rfl, hfilename,
    hfilepath, htext, hpages, rfl⟩

/--
Is this the record of a file: the document that the file describes, numbered by the position, if the file fits, and
otherwise an error at the position with the file's name, if that is a text?
-/
def Record.IsOfFile (position : Nat) (number : UInt32) (file : Json) : Record → Prop
  | .valid d => Document.FitsFile file ∧ d.id = UInt32.ofNat (position + 1) ∧ Document.DescribedByFile number file d
  | .invalid e =>
    ¬ Document.FitsFile file ∧ e.position = position ∧ e.filename = (file.field? "filename").bind Json.text?

/-- A usable file leaves its record. -/
theorem Record.isOfFile_ofDecoded {file : Json} (usable : file.IsUsable) (position : Nat) (number : UInt32) :
    (ofDecoded position file (Document.ofFile number file)).IsOfFile position number file := by
  cases hd : Document.ofFile number file with
  | ok d =>
    obtain ⟨-, described⟩ := Document.ofFile_eq_ok_iff.1 hd
    -- the check keeps the derived table, and accepting changes nothing else but the number
    exact ⟨described.fits, rfl, described.dataset, described.filename, described.filepath, described.text,
      described.pages, pageOffsets_of_accept described.pageOffsets rfl⟩
  | error fault =>
    refine ⟨fun fits => ?_, rfl, rfl⟩
    obtain ⟨d, hd'⟩ := Document.exists_describedByFile usable fits number
    rw [Document.ofFile_eq_ok_iff.2 hd'] at hd
    cases hd

namespace Corpus

/-! ## Records -/

/-- The files of datasets one after another, each with the number of its dataset. -/
def numberedFiles (ds : List Dataset) : List (UInt32 × Json) := ds.flatMap fun d => d.files.map (d.number, ·)

/-- Are these the records that files leave, if the next record is at `position`? -/
inductive Leaves : Nat → List (UInt32 × Json) → List Record → Prop where
  | nil (position : Nat) : Leaves position [] []
  | skipped {position : Nat} {number : UInt32} {file : Json} {files : List (UInt32 × Json)} {records : List Record}
      (unusable : ¬ file.IsUsable) (later : Leaves position files records) :
      Leaves position ((number, file) :: files) records
  | kept {position : Nat} {number : UInt32} {file : Json} {files : List (UInt32 × Json)} {record : Record}
      {records : List Record} (usable : file.IsUsable) (own : record.IsOfFile position number file)
      (later : Leaves (position + 1) files records) : Leaves position ((number, file) :: files) (record :: records)

theorem extractedFiles_eq (ds : List Dataset) :
    extractedFiles ds = (numberedFiles ds).filter fun f => isExtracted f.2 := by
  unfold extractedFiles numberedFiles
  rw [List.filter_flatMap]
  simp only [List.filter_map]
  rfl

/-- Going through the files leaves the records of the usable ones. -/
theorem leaves_mapIdx (files : List (UInt32 × Json)) (position : Nat) :
    Leaves position files ((files.filter fun f => isExtracted f.2).mapIdx fun i f =>
      Record.ofDecoded (position + i) f.2 (Document.ofFile f.1 f.2)) := by
  induction files generalizing position with
  | nil => exact .nil position
  | cons f files ih =>
    obtain ⟨number, file⟩ := f
    by_cases usable : file.IsUsable
    · rw [List.filter_cons_of_pos (by exact isExtracted_iff.2 usable), List.mapIdx_cons]
      have later := ih (position + 1)
      simp only [Nat.add_assoc, Nat.add_comm 1] at later
      exact .kept usable (Record.isOfFile_ofDecoded usable position number) later
    · rw [List.filter_cons_of_neg (by exact fun h => usable (isExtracted_iff.1 h))]
      exact .skipped usable (ih position)

theorem fullRecords_eq (ds : List Dataset) :
    fullRecords ds = ((numberedFiles ds).filter fun f => isExtracted f.2).mapIdx fun i f =>
      Record.ofDecoded i f.2 (Document.ofFile f.1 f.2) := by
  rw [← extractedFiles_eq]
  rfl

theorem leaves_fullRecords (ds : List Dataset) : Leaves 0 (numberedFiles ds) (fullRecords ds) := by
  have records := leaves_mapIdx (numberedFiles ds) 0
  simp only [Nat.zero_add] at records
  rwa [fullRecords_eq]

/-- How files are spread over entries with one number does not matter. -/
theorem fullRecords_split (before : List Dataset) (number : UInt32) (files more : List Json) (after : List Dataset) :
    fullRecords (before ++ ⟨number, files⟩ :: ⟨number, more⟩ :: after) =
      fullRecords (before ++ ⟨number, files ++ more⟩ :: after) := by
  have same : numberedFiles (before ++ ⟨number, files⟩ :: ⟨number, more⟩ :: after) =
      numberedFiles (before ++ ⟨number, files ++ more⟩ :: after) := by
    simp [numberedFiles]
  rw [fullRecords_eq, same, ← fullRecords_eq]

/-! ## The format -/

/-- Does a text hold an object whose datasets have these entries? -/
def HoldsDatasets (text : String) (entries : List Json) : Prop :=
  ∃ fields, parse? text = some (.object fields) ∧ lookup? "datasets" fields = some (.array entries)

theorem ofText_of_holdsDatasets {text : String} {entries : List Json} (h : HoldsDatasets text entries)
    (source : Option String) :
    ofText source text =
      match datasets 0 entries with
      | .error e => .error (.invalidCorpus (source.getD "<inline>") e.message)
      | .ok ds => .ok ⟨fullRecords ds, .full, source⟩ := by
  obtain ⟨fields, parsed, found⟩ := h
  unfold ofText
  rw [parsed]
  simp only [ofJson, found]
  cases datasets 0 entries <;> rfl

/-- The text that such an object is written as holds its entries. -/
theorem holdsDatasets_pretty {entries : List Json} (h : ∀ e ∈ entries, Readable 125 e) :
    HoldsDatasets (Json.object [("datasets", .array entries)]).pretty entries := by
  have readable : Readable maxDepth (.object [("datasets", .array entries)]) := by
    refine .object (by simp) ?_
    rw [List.forall_mem_singleton]
    exact .array h
  exact ⟨_, parse?_pretty readable, rfl⟩

theorem toOption_ofText {text : String} {entries : List Json} (h : HoldsDatasets text entries)
    (source : Option String) :
    (ofText source text).toOption =
      (entries.mapM fun e => (Dataset.ofJson e).toOption).map fun ds => ⟨fullRecords ds, .full, source⟩ := by
  rw [ofText_of_holdsDatasets h, ← toOption_datasets 0]
  cases datasets 0 entries <;> rfl

/--
A text with datasets is read all or not at all. If an entry does not fit, there is no corpus, and the error names the
first such entry by its index and says what is wrong with it. If all entries fit, the records are those that the files
leave one after another in the order of the datasets. Spreading the files of one entry over two with the same number
changes no record.
-/
theorem full_records_all_or_none (entries : List Json) :
    ((∃ entry ∈ entries, ¬ Dataset.Fits entry) →
      ∃ before entry after fault, entries = before ++ entry :: after ∧ (∀ e ∈ before, Dataset.Fits e) ∧
        ¬ Dataset.Fits entry ∧ Dataset.ofJson entry = .error fault ∧
        ∀ source text, HoldsDatasets text entries → ofText source text =
          .error (.invalidCorpus (source.getD "<inline>")
            ("dataset entry " ++ Text.decimalText before.length ++ ": " ++ fault.message))) ∧
    ((∀ entry ∈ entries, Dataset.Fits entry) →
      ∃ ds, List.Forall₂ Dataset.Describes entries ds ∧ Leaves 0 (numberedFiles ds) (fullRecords ds) ∧
        ∀ source text, HoldsDatasets text entries → ofText source text = .ok ⟨fullRecords ds, .full, source⟩) ∧
    ∀ before entry after first second number files more, entries = before ++ entry :: after →
      Dataset.Describes entry ⟨number, files ++ more⟩ → Dataset.Describes first ⟨number, files⟩ →
      Dataset.Describes second ⟨number, more⟩ → ∀ source text spread, HoldsDatasets text entries →
        HoldsDatasets spread (before ++ first :: second :: after) →
        (ofText source spread).toOption = (ofText source text).toOption := by
  refine ⟨?_, ?_, ?_⟩
  · rintro ⟨bad, hbad, unfit⟩
    cases h : datasets 0 entries with
    | ok ds => exact absurd (Dataset.fits_of_forall₂ (datasets_eq_ok_iff.1 h) bad hbad) unfit
    | error e =>
      obtain ⟨before, entry, after, fault, same, fits, undecoded, rfl⟩ := datasets_eq_error h
      refine ⟨before, entry, after, fault, same, fits, Dataset.not_fits_of_error undecoded, undecoded,
        fun source text held => ?_⟩
      rw [ofText_of_holdsDatasets held, h, Nat.zero_add]
      rfl
  · intro fits
    cases h : datasets 0 entries with
    | ok ds =>
      refine ⟨ds, datasets_eq_ok_iff.1 h, leaves_fullRecords ds, fun source text held => ?_⟩
      rw [ofText_of_holdsDatasets held, h]
    | error e =>
      obtain ⟨before, entry, after, fault, rfl, -, undecoded, -⟩ := datasets_eq_error h
      exact absurd (fits entry (by simp)) (Dataset.not_fits_of_error undecoded)
  · rintro before entry after first second number files more rfl whole one two source text spread held heldSpread
    rw [toOption_ofText held, toOption_ofText heldSpread]
    have read {e : Json} {d : Dataset} (h : Dataset.Describes e d) : (Dataset.ofJson e).toOption = some d := by
      rw [Dataset.ofJson_eq_ok_iff.2 h]
      rfl
    simp only [List.mapM_append, List.mapM_cons, read whole, read one, read two]
    cases before.mapM fun e => (Dataset.ofJson e).toOption with
    | none => rfl
    | some ds =>
      cases after.mapM fun e => (Dataset.ofJson e).toOption with
      | none => rfl
      | some es =>
        exact congrArg (fun records => some (⟨records, .full, source⟩ : Corpus))
          (fullRecords_split ds number files more es)

/-- A file that fits, and one with an error, if only an empty one. -/
def chart : Json := .object [("filename", .text "a"), ("filepath", .text "a"), ("full_text", .text "x")]

def tornChart : Json := .object [("filename", .text "b"), ("full_text", .text "y"), ("error", .null)]

/-- An entry written as an array. -/
def drawer (files : List Json) : Json := .array [.integer 1, .array files]

theorem describes_drawer (files : List Json) : Dataset.Describes (drawer files) ⟨1, files⟩ :=
  .inr ⟨_, rfl, Nat.le_succ 1, Nat.le_refl 2, Dataset.describedBy_zip_iff.2 ⟨rfl, .inl rfl⟩⟩

theorem readable_drawer {files : List Json} (h : ∀ file ∈ files, file = chart ∨ file = tornChart) :
    Readable 125 (drawer files) := by
  have readable : ∀ file ∈ files, Readable 123 file := by
    intro file hfile
    rcases h file hfile with rfl | rfl
    · refine .object (by simp) ?_
      simp only [List.forall_mem_cons]
      exact ⟨.text _ _, .text _ _, .text _ _, fun _ h => nomatch h⟩
    · refine .object (by simp) ?_
      simp only [List.forall_mem_cons]
      exact ⟨.text _ _, .text _ _, .null _, fun _ h => nomatch h⟩
  refine .array ?_
  simp only [List.forall_mem_cons]
  exact ⟨.integer _ (isInteger64_of_lt (by decide)), .array readable, fun _ h => nomatch h⟩

/-- The torn chart shifts no number, wherever it lies; an entry that is no dataset spoils all, and is named. -/
theorem full_records_drawers : ∃ whole spread broken,
    HoldsDatasets whole [drawer [tornChart, chart]] ∧ HoldsDatasets spread [drawer [tornChart], drawer [chart]] ∧
    HoldsDatasets broken [drawer [chart], .null] ∧
    (∃ records, ofText none whole = .ok ⟨records, .full, none⟩ ∧ Leaves 0 [(1, tornChart), (1, chart)] records) ∧
    (ofText none spread).toOption = (ofText none whole).toOption ∧
    ∃ fault : Fault,
      ofText none broken = .error (.invalidCorpus "<inline>" ("dataset entry 1: " ++ fault.message)) := by
  have whole : HoldsDatasets _ [drawer [tornChart, chart]] := holdsDatasets_pretty (by simp [readable_drawer])
  have spread : HoldsDatasets _ [drawer [tornChart], drawer [chart]] :=
    holdsDatasets_pretty (by simp [readable_drawer])
  have broken : HoldsDatasets _ [drawer [chart], .null] :=
    holdsDatasets_pretty (by simp [readable_drawer, Readable.null])
  have fits (files : List Json) : Dataset.Fits (drawer files) := Dataset.fits_iff.2 ⟨_, describes_drawer files⟩
  refine ⟨_, _, _, whole, spread, broken, ?_, ?_, ?_⟩
  · obtain ⟨ds, described, leaves, read⟩ := (full_records_all_or_none _).2.1 (List.forall_mem_singleton.2 (fits _))
    obtain _ | ⟨one, none⟩ := described
    cases none
    obtain rfl := one.unique (describes_drawer _)
    exact ⟨_, read none _ whole, leaves⟩
  · exact (full_records_all_or_none _).2.2 [] _ [] _ _ 1 [tornChart] [chart] rfl (describes_drawer _)
      (describes_drawer _) (describes_drawer _) none _ _ whole spread
  · obtain ⟨before, entry, after, fault, same, -, unfit, -, message⟩ :=
      (full_records_all_or_none [drawer [chart], .null]).1 ⟨.null, by simp, Dataset.not_fits_of_error rfl⟩
    -- the entry that is named comes after the drawer, since the drawer fits
    match before, same with
    | [], same =>
      obtain ⟨rfl, -⟩ := List.cons.inj same
      exact absurd (fits _) unfit
    | [_], _ =>
      have named : "dataset entry " ++ Text.decimalText 1 ++ ": " = "dataset entry 1: " := by decide +kernel
      exact ⟨fault, by rw [← named]; exact message none _ broken⟩
    | _ :: _ :: _, same => simp at same

end Corpus

end Concordance
