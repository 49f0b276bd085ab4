/-
Documents, datasets and files as they are decoded. A value is decoded exactly if it says what the document, the
dataset or the file's document holds: every field that has to be there with a value of its type, and a field that
may be missing with a value of its type or not at all.
-/
import Concordance.Corpus.Decode
import Concordance.Proofs.Json.Fields

namespace Concordance

open Json

/-! ## Documents -/

namespace Document

def fieldNames : List String := ["id", "dataset", "filename", "filepath", "pages", "text", "page_offsets"]

/-- Do fields say what a document holds? -/
structure DescribedBy (fields : List (String × Json)) (d : Document) : Prop where
  dataset : lookup? "dataset" fields = some (ofUInt32 d.dataset)
  filename : lookup? "filename" fields = some (.text d.filename)
  filepath : lookup? "filepath" fields = some (.text d.filepath)
  pages : lookup? "pages" fields = some (ofUInt32 d.pages)
  id : ValueOr ofUInt32 0 (lookup? "id" fields) d.id
  text : ValueOr Json.text "" (lookup? "text" fields) d.text
  pageOffsets : HasTable (lookup? "page_offsets" fields) d.pageOffsets

/-- Does a value say what a document holds? -/
def Describes (item : Json) (d : Document) : Prop := IsRecord fieldNames 5 (DescribedBy · d) item

theorem ofFields_eq_ok_iff {fields : List (String × Json)} {d : Document} :
    ofFields fields = .ok d ↔ DescribedBy fields d := by
  unfold ofFields
  simp only [bind_eq_ok_iff, fieldIfPresent_eq_ok_iff, present_eq_ok_iff, pure, Except.pure, Except.ok.injEq]
  constructor
  · rintro ⟨_, dataset, _, filename, _, filepath, id, hid, table, htable, _, pages, text, htext, _, rfl, _, rfl, _, rfl,
      _, rfl, rfl⟩
    exact ⟨(takes_some_iff toUInt32_eq_ok_iff).1 dataset, (takes_some_iff toText_eq_ok_iff).1 filename,
      (takes_some_iff toText_eq_ok_iff).1 filepath, (takes_some_iff toUInt32_eq_ok_iff).1 pages,
      (exists_takes_getD_iff toUInt32_eq_ok_iff).1 ⟨id, hid, rfl⟩,
      (exists_takes_getD_iff toText_eq_ok_iff).1 ⟨text, htext, rfl⟩, exists_takes_join_iff.1 ⟨table, htable, rfl⟩⟩
  · intro h
    obtain ⟨id, hid, id_eq⟩ := (exists_takes_getD_iff toUInt32_eq_ok_iff).2 h.id
    obtain ⟨text, htext, text_eq⟩ := (exists_takes_getD_iff toText_eq_ok_iff).2 h.text
    obtain ⟨table, htable, table_eq⟩ := exists_takes_join_iff.2 h.pageOffsets
    refine ⟨_, (takes_some_iff toUInt32_eq_ok_iff).2 h.dataset, _, (takes_some_iff toText_eq_ok_iff).2 h.filename,
      _, (takes_some_iff toText_eq_ok_iff).2 h.filepath, id, hid, table, htable,
      _, (takes_some_iff toUInt32_eq_ok_iff).2 h.pages, text, htext, _, rfl, _, rfl, _, rfl, _, rfl, ?_⟩
    rw [id_eq, text_eq, table_eq]

/-- The names of the fields stand for the items of an array in their order. -/
theorem describedBy_zip_iff {items : List Json} {d : Document} :
    DescribedBy (fieldNames.zip items) d ↔
      ValueOr ofUInt32 0 items[0]? d.id ∧ items[1]? = some (ofUInt32 d.dataset) ∧ items[2]? = some (.text d.filename) ∧
      items[3]? = some (.text d.filepath) ∧ items[4]? = some (ofUInt32 d.pages) ∧
      ValueOr Json.text "" items[5]? d.text ∧ HasTable items[6]? d.pageOffsets := by
  have named : lookup? "id" (fieldNames.zip items) = items[0]? ∧ lookup? "dataset" (fieldNames.zip items) = items[1]? ∧
      lookup? "filename" (fieldNames.zip items) = items[2]? ∧ lookup? "filepath" (fieldNames.zip items) = items[3]? ∧
      lookup? "pages" (fieldNames.zip items) = items[4]? ∧ lookup? "text" (fieldNames.zip items) = items[5]? ∧
      lookup? "page_offsets" (fieldNames.zip items) = items[6]? := by
    simp [fieldNames, lookup?_zip_self, lookup?_zip_of_ne, List.head?_eq_getElem?]
  obtain ⟨id, dataset, filename, filepath, pages, text, table⟩ := named
  rw [← id, ← dataset, ← filename, ← filepath, ← pages, ← text, ← table]
  constructor
  · rintro ⟨hdataset, hfilename, hfilepath, hpages, hid, htext, htable⟩
    exact ⟨hid, hdataset, hfilename, hfilepath, hpages, htext, htable⟩
  · rintro ⟨hid, hdataset, hfilename, hfilepath, hpages, htext, htable⟩
    exact ⟨hdataset, hfilename, hfilepath, hpages, hid, htext, htable⟩

theorem ofItems_eq_ok_iff {items : List Json} {d : Document} :
    ofItems items = .ok d ↔ items.length ≤ 7 ∧ DescribedBy (fieldNames.zip items) d := by
  unfold ofItems
  simp only [readPositional_eq_ok_iff, positional_bind_eq_ok_iff, next_eq_ok_iff, nextIfPresent_eq_ok_iff,
    takes_some_iff toUInt32_eq_ok_iff, takes_some_iff toText_eq_ok_iff, and_assoc, exists_and_left, exists_eq_left,
    List.head?_eq_getElem?, List.getElem?_tail, Nat.reduceAdd, describedBy_zip_iff]
  constructor
  · rintro ⟨id, hid, dataset, hdataset, filename, hfilename, filepath, hfilepath, pages, hpages, text, htext, table,
      htable, read⟩
    obtain ⟨rfl, ended⟩ := Prod.mk.inj (Except.ok.inj read)
    have length := congrArg List.length ended
    simp only [List.length_tail, List.length_nil] at length
    exact ⟨by omega, (exists_takes_getD_iff toUInt32_eq_ok_iff).1 ⟨id, hid, rfl⟩, hdataset, hfilename, hfilepath,
      hpages, (exists_takes_getD_iff toText_eq_ok_iff).1 ⟨text, htext, rfl⟩,
      exists_takes_join_iff.1 ⟨table, htable, rfl⟩⟩
  · rintro ⟨length, hid, hdataset, hfilename, hfilepath, hpages, htext, htable⟩
    obtain ⟨id, hid, id_eq⟩ := (exists_takes_getD_iff toUInt32_eq_ok_iff).2 hid
    obtain ⟨text, htext, text_eq⟩ := (exists_takes_getD_iff toText_eq_ok_iff).2 htext
    obtain ⟨table, htable, table_eq⟩ := exists_takes_join_iff.2 htable
    have ended : items.tail.tail.tail.tail.tail.tail.tail = [] := by
      rw [← List.length_eq_zero_iff]
      simp only [List.length_tail]
      omega
    refine ⟨id, hid, _, hdataset, _, hfilename, _, hfilepath, _, hpages, text, htext, table, htable, ?_⟩
    rw [id_eq, text_eq, table_eq, ended]
    rfl

/-- A value is decoded as a document exactly if it describes the document. -/
theorem ofJson_eq_ok_iff {item : Json} {d : Document} : ofJson item = .ok d ↔ Describes item d := by
  refine eq_ok_iff_isRecord (fun _ => ofFields_eq_ok_iff) (fun _ => ofItems_eq_ok_iff) (fun items h => ?_) ?_ item
  · obtain ⟨least, -⟩ := List.getElem?_eq_some_iff.1 (describedBy_zip_iff.1 h).2.2.2.2.1
    exact least
  · intro v h
    cases v with
    | object fields => exact .inl ⟨fields, rfl⟩
    | array items => exact .inr ⟨items, rfl⟩
    | _ => cases h

end Document

/-! ## Datasets -/

namespace Dataset

def fieldNames : List String := ["dataset_number", "files"]

/-- Do fields say what a dataset holds? -/
structure DescribedBy (fields : List (String × Json)) (d : Dataset) : Prop where
  number : lookup? "dataset_number" fields = some (ofUInt32 d.number)
  files : ValueOr Json.array [] (lookup? "files" fields) d.files

/-- Does a value say what a dataset holds? -/
def Describes (entry : Json) (d : Dataset) : Prop := IsRecord fieldNames 1 (DescribedBy · d) entry

theorem ofFields_eq_ok_iff {fields : List (String × Json)} {d : Dataset} :
    ofFields fields = .ok d ↔ DescribedBy fields d := by
  unfold ofFields
  simp only [bind_eq_ok_iff, fieldIfPresent_eq_ok_iff, present_eq_ok_iff, pure, Except.pure, Except.ok.injEq]
  constructor
  · rintro ⟨_, number, files, hfiles, _, rfl, rfl⟩
    exact ⟨(takes_some_iff toUInt32_eq_ok_iff).1 number,
      (exists_takes_getD_iff toItems_eq_ok_iff).1 ⟨files, hfiles, rfl⟩⟩
  · intro h
    obtain ⟨files, hfiles, files_eq⟩ := (exists_takes_getD_iff toItems_eq_ok_iff).2 h.files
    refine ⟨_, (takes_some_iff toUInt32_eq_ok_iff).2 h.number, files, hfiles, _, rfl, ?_⟩
    rw [files_eq]

theorem describedBy_zip_iff {items : List Json} {d : Dataset} :
    DescribedBy (fieldNames.zip items) d ↔
      items[0]? = some (ofUInt32 d.number) ∧ ValueOr Json.array [] items[1]? d.files := by
  have named : lookup? "dataset_number" (fieldNames.zip items) = items[0]? ∧
      lookup? "files" (fieldNames.zip items) = items[1]? := by
    simp [fieldNames, lookup?_zip_self, lookup?_zip_of_ne, List.head?_eq_getElem?]
  rw [← named.1, ← named.2]
  exact ⟨fun h => ⟨h.number, h.files⟩, fun h => ⟨h.1, h.2⟩⟩

theorem ofItems_eq_ok_iff {items : List Json} {d : Dataset} :
    ofItems items = .ok d ↔ items.length ≤ 2 ∧ DescribedBy (fieldNames.zip items) d := by
  unfold ofItems
  simp only [readPositional_eq_ok_iff, positional_bind_eq_ok_iff, next_eq_ok_iff, nextIfPresent_eq_ok_iff,
    takes_some_iff toUInt32_eq_ok_iff, and_assoc, exists_and_left, exists_eq_left, List.head?_eq_getElem?,
    List.getElem?_tail, Nat.reduceAdd, describedBy_zip_iff]
  constructor
  · rintro ⟨number, hnumber, files, hfiles, read⟩
    obtain ⟨rfl, ended⟩ := Prod.mk.inj (Except.ok.inj read)
    have length := congrArg List.length ended
    simp only [List.length_tail, List.length_nil] at length
    exact ⟨by omega, hnumber, (exists_takes_getD_iff toItems_eq_ok_iff).1 ⟨files, hfiles, rfl⟩⟩
  · rintro ⟨length, hnumber, hfiles⟩
    obtain ⟨files, hfiles, files_eq⟩ := (exists_takes_getD_iff toItems_eq_ok_iff).2 hfiles
    have ended : items.tail.tail = [] := by
      rw [← List.length_eq_zero_iff]
      simp only [List.length_tail]
      omega
    refine ⟨_, hnumber, files, hfiles, ?_⟩
    rw [files_eq, ended]
    rfl

/-- A value is decoded as a dataset exactly if it describes the dataset. -/
theorem ofJson_eq_ok_iff {entry : Json} {d : Dataset} : ofJson entry = .ok d ↔ Describes entry d := by
  refine eq_ok_iff_isRecord (fun _ => ofFields_eq_ok_iff) (fun _ => ofItems_eq_ok_iff) (fun items h => ?_) ?_ entry
  · obtain ⟨least, -⟩ := List.getElem?_eq_some_iff.1 (describedBy_zip_iff.1 h).1
    exact least
  · intro v h
    cases v with
    | object fields => exact .inl ⟨fields, rfl⟩
    | array items => exact .inr ⟨items, rfl⟩
    | _ => cases h

end Dataset

/-! ## Files -/

namespace Document

/-- Does a file of a dataset with this number say what a document holds? -/
structure DescribedByFile (number : UInt32) (file : Json) (d : Document) : Prop where
  dataset : d.dataset = number
  filename : file.field? "filename" = some (.text d.filename)
  filepath : file.field? "filepath" = some (.text d.filepath)
  text : file.field? "full_text" = some (.text d.text)
  pages : ValueOr ofUInt32 0 (file.field? "pages") d.pages
  pageOffsets : d.pageOffsets = some (Page.deriveOffsets d.text.toList)

theorem ofFile_eq_ok_iff {number : UInt32} {file : Json} {d : Document} :
    ofFile number file = .ok d ↔ d.id = 0 ∧ DescribedByFile number file d := by
  cases file with
  | object fields =>
    unfold ofFile
    simp only [bind_eq_ok_iff, fieldIfPresent_eq_ok_iff, present_eq_ok_iff, pure, Except.pure, Except.ok.injEq]
    constructor
    · rintro ⟨_, filename, _, filepath, _, text, pages, hpages, _, rfl, _, rfl, _, rfl, rfl⟩
      exact ⟨rfl, rfl, (takes_some_iff toText_eq_ok_iff).1 filename, (takes_some_iff toText_eq_ok_iff).1 filepath,
        (takes_some_iff toText_eq_ok_iff).1 text, (exists_takes_getD_iff toUInt32_eq_ok_iff).1 ⟨pages, hpages, rfl⟩,
        rfl⟩
    · rintro ⟨id, ⟨dataset, filename, filepath, text, hpages, table⟩⟩
      obtain ⟨pages, hpages, pages_eq⟩ := (exists_takes_getD_iff toUInt32_eq_ok_iff).2 hpages
      refine ⟨_, (takes_some_iff toText_eq_ok_iff).2 filename, _, (takes_some_iff toText_eq_ok_iff).2 filepath,
        _, (takes_some_iff toText_eq_ok_iff).2 text, pages, hpages, _, rfl, _, rfl, _, rfl, ?_⟩
      rw [pages_eq, ← id, ← dataset, ← table]
  | _ =>
    -- other values have no fields, and a file has to have a name
    constructor
    · intro h
      cases h
    · intro h
      cases h.2.filename

end Document

end Concordance
