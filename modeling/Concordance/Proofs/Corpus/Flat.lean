/-
The flat format record by record. Each item of the array leaves one record at its own position: a document if the
item fits the schema, and an error with the item's file name if it does not. What stands at other positions has no
part in it.
-/
import Concordance.Corpus.Load
import Concordance.Proofs.Corpus.Decoded

namespace Concordance

open Json

namespace Document

/-! ## The schema -/

/-- Do fields have the types of a document's fields, and are those there that have to be? -/
structure FitsFields (fields : List (String × Json)) : Prop where
  dataset : ∃ v ∈ lookup? "dataset" fields, v.IsUInt32
  filename : ∃ v ∈ lookup? "filename" fields, v.IsText
  filepath : ∃ v ∈ lookup? "filepath" fields, v.IsText
  pages : ∃ v ∈ lookup? "pages" fields, v.IsUInt32
  id : ∀ v ∈ lookup? "id" fields, v.IsUInt32
  text : ∀ v ∈ lookup? "text" fields, v.IsText
  pageOffsets : ∀ v ∈ lookup? "page_offsets" fields, v = .null ∨ v.IsOffsets

/-- Does an item fit the schema: an object, or an array of five to seven items in the order of the fields? -/
def Fits (item : Json) : Prop := IsRecord fieldNames 5 FitsFields item

theorem fitsFields_iff {fields : List (String × Json)} : FitsFields fields ↔ ∃ d, DescribedBy fields d := by
  constructor
  · intro h
    obtain ⟨dataset, hdataset⟩ := (exists_mem_iff isUInt32_iff).1 h.dataset
    obtain ⟨filename, hfilename⟩ := (exists_mem_iff Iff.rfl).1 h.filename
    obtain ⟨filepath, hfilepath⟩ := (exists_mem_iff Iff.rfl).1 h.filepath
    obtain ⟨pages, hpages⟩ := (exists_mem_iff isUInt32_iff).1 h.pages
    obtain ⟨id, hid⟩ := (forall_mem_iff isUInt32_iff 0).1 h.id
    obtain ⟨text, htext⟩ := (forall_mem_iff Iff.rfl "").1 h.text
    obtain ⟨table, htable⟩ := forall_mem_table_iff.1 h.pageOffsets
    exact ⟨⟨id, dataset, filename, filepath, pages, text, table⟩, hdataset, hfilename, hfilepath, hpages, hid, htext,
      htable⟩
  · rintro ⟨d, h⟩
    exact ⟨(exists_mem_iff isUInt32_iff).2 ⟨_, h.dataset⟩, (exists_mem_iff Iff.rfl).2 ⟨_, h.filename⟩,
      (exists_mem_iff Iff.rfl).2 ⟨_, h.filepath⟩, (exists_mem_iff isUInt32_iff).2 ⟨_, h.pages⟩,
      (forall_mem_iff isUInt32_iff 0).2 ⟨_, h.id⟩, (forall_mem_iff Iff.rfl "").2 ⟨_, h.text⟩,
      forall_mem_table_iff.2 ⟨_, h.pageOffsets⟩⟩

theorem fits_iff {item : Json} : Fits item ↔ ∃ d, Describes item d := isRecord_iff_exists fitsFields_iff

end Document

/-! ## Records -/

namespace Corpus

theorem ofText_array {text : String} {items : List Json} (parsed : parse? text = some (.array items))
    (source : Option String) : ofText source text = .ok ⟨flatRecords items, .flat, source⟩ := by
  unfold ofText
  rw [parsed]
  rfl

theorem getElem?_flatRecords (items : List Json) (i : Nat) :
    (flatRecords items)[i]? = items[i]?.map fun item => Record.ofDecoded i item (Document.ofJson item) :=
  List.getElem?_mapIdx

/-- The record of an item that describes a document is the document, numbered and with its table checked. -/
theorem flatRecords_of_describes {items : List Json} {i : Nat} {item : Json} (hi : items[i]? = some item) {d : Document}
    (h : Document.Describes item d) : (flatRecords items)[i]? = some (Record.accept i d) := by
  rw [getElem?_flatRecords, hi, Option.map_some, Document.ofJson_eq_ok_iff.2 h]
  rfl

/-- The record of an item that does not fit is an error. -/
theorem flatRecords_of_not_fits {items : List Json} {i : Nat} {item : Json} (hi : items[i]? = some item)
    (h : ¬ Document.Fits item) :
    ∃ fault, (flatRecords items)[i]? = some (.invalid ⟨i, (item.field? "filename").bind Json.text?, fault⟩) := by
  rw [getElem?_flatRecords, hi, Option.map_some]
  cases hd : Document.ofJson item with
  | ok d => exact absurd (Document.fits_iff.2 ⟨d, Document.ofJson_eq_ok_iff.1 hd⟩) h
  | error fault => exact ⟨fault, rfl⟩

/--
A text with an array is a corpus with one record for each item, at the item's position. The record is a document
exactly if the item fits the schema, namely the document that the item describes, numbered by the position and without
a table that does not fit its text; otherwise it is an error with the item's file name, if that is a text. Arrays with
the same item at a position have the same record there, whatever else they hold.
-/
theorem flat_records_fit (items : List Json) :
    (∀ source text, parse? text = some (.array items) → ofText source text = .ok ⟨flatRecords items, .flat, source⟩) ∧
    (flatRecords items).length = items.length ∧
    (∀ i item, items[i]? = some item →
      ((∃ d, (flatRecords items)[i]? = some (.valid d)) ↔ Document.Fits item) ∧
      (∀ d, Document.Describes item d → (flatRecords items)[i]? = some (Record.accept i d)) ∧
      (¬ Document.Fits item → ∃ fault, (flatRecords items)[i]? =
        some (.invalid ⟨i, (item.field? "filename").bind Json.text?, fault⟩))) ∧
    ∀ (others : List Json) (i : Nat), others[i]? = items[i]? → (flatRecords others)[i]? = (flatRecords items)[i]? := by
  refine ⟨fun source text parsed => ofText_array parsed source, List.length_mapIdx, fun i item hi => ⟨⟨?_, ?_⟩,
    fun d => flatRecords_of_describes hi, flatRecords_of_not_fits hi⟩, fun others i same => ?_⟩
  · rintro ⟨d, valid⟩
    by_contra unfit
    obtain ⟨fault, invalid⟩ := flatRecords_of_not_fits hi unfit
    rw [valid] at invalid
    cases invalid
  · intro fits
    obtain ⟨d, hd⟩ := Document.fits_iff.1 fits
    exact ⟨_, flatRecords_of_describes hi hd⟩
  · rw [getElem?_flatRecords, getElem?_flatRecords, same]

/-- An item of five fields, one with too many, one whose table is null, and one whose number of pages is below zero. -/
example :
    (ofText none ("[[7,1,\"a\",\"a\",2],[7,1,\"b\",\"b\",2,\"\",[],0]," ++
      "\x7b\"dataset\":1,\"filename\":\"c\",\"filepath\":\"c\",\"pages\":0,\"page_offsets\":null\x7d," ++
      "\x7b\"dataset\":1,\"filename\":\"d\",\"filepath\":\"d\",\"pages\":-1\x7d]")).toOption.map (fun c =>
        (c.documents.map (·.id), c.errors.map fun e => (e.position, e.filename))) =
      some ([1, 3], [(1, none), (3, some "d")]) := by
  decide +kernel

end Corpus

end Concordance
