/-
Documents written in the flat format. Whatever documents are written, and in whatever order the fields of each stand,
reading the text makes the same corpus as the documents themselves: numbered anew, and without the tables that do not
fit. Documents of a corpus without errors have their numbers and fitting tables already and come back as they are.
-/
import Concordance.Proofs.Corpus.Records
import Concordance.Proofs.Index.Offsets

namespace Concordance

/-! ## Fields in any order -/

namespace Json

variable {α : Type} {fields : List (String × Json)} {name : String} {v : Json} {decode : Json → Except Fault α}

/-- Of fields with distinct names each is the one found under its name. -/
theorem lookup?_of_mem (hnames : (fields.map Prod.fst).Nodup) (h : (name, v) ∈ fields) :
    lookup? name fields = some v := by
  induction fields with
  | nil => cases h
  | cons f fields ih =>
    obtain ⟨other, later⟩ := List.nodup_cons.1 hnames
    rcases List.mem_cons.1 h with rfl | h
    · exact if_pos rfl
    · have ne : f.1 ≠ name := fun same => other (same ▸ List.mem_map_of_mem h)
      rw [lookup?, if_neg ne, ih later h]

theorem lookup?_of_notMem (h : name ∉ fields.map Prod.fst) : lookup? name fields = none := by
  induction fields with
  | nil => rfl
  | cons f fields ih =>
    rw [lookup?, if_neg (List.ne_of_not_mem_cons h).symm, ih (List.not_mem_of_not_mem_cons h)]

theorem fieldIfPresent_of_mem (hnames : (fields.map Prod.fst).Nodup) (h : (name, v) ∈ fields) {a : α}
    (hv : decode v = .ok a) : fieldIfPresent fields name decode = .ok (some a) := by
  rw [fieldIfPresent, lookup?_of_mem hnames h]
  simp only [hv, Except.map]

theorem fieldIfPresent_of_notMem (h : name ∉ fields.map Prod.fst) :
    fieldIfPresent fields name decode = .ok none := by
  rw [fieldIfPresent, lookup?_of_notMem h]

end Json

namespace Document

open Json

/-- Is a value an object with the fields of a document, in any order? -/
def Writes (v : Json) (d : Document) : Prop :=
  ∃ fields written, v = .object fields ∧ d.toJson = .object written ∧ fields.Perm written

theorem writes_toJson (d : Document) : Writes d.toJson d := ⟨_, _, rfl, rfl, .rfl⟩

theorem nodup_names {d : Document} {fields : List (String × Json)} (h : d.toJson = .object fields) :
    (fields.map Prod.fst).Nodup := by
  cases h
  cases d.pageOffsets with
  | none => simp
  | some offsets => simp

/-- A document with a table of 64 bits is read back from its fields. -/
theorem Writes.ofJson {v : Json} {d : Document} (h : Writes v d)
    (hfit : ∀ offsets, d.pageOffsets = some offsets → ∀ o ∈ offsets, o < UInt64.size) : ofJson v = .ok d := by
  obtain ⟨fields, written, rfl, hd, hperm⟩ := h
  have distinct : (fields.map Prod.fst).Nodup := (hperm.map Prod.fst).nodup_iff.2 (nodup_names hd)
  have field {α : Type} (name : String) (v : Json) (decode : Json → Except Fault α) {a : α} (hm : (name, v) ∈ written)
      (hv : decode v = .ok a) : fieldIfPresent fields name decode = .ok (some a) :=
    fieldIfPresent_of_mem distinct (hperm.mem_iff.2 hm) hv
  cases hd
  have id := field "id" (.integer d.id.toNat) toUInt32 (by simp) (toUInt32_integer d.id)
  have dataset := field "dataset" (.integer d.dataset.toNat) toUInt32 (by simp) (toUInt32_integer d.dataset)
  have filename := field "filename" (.text d.filename) toText (by simp) rfl
  have filepath := field "filepath" (.text d.filepath) toText (by simp) rfl
  have pages := field "pages" (.integer d.pages.toNat) toUInt32 (by simp) (toUInt32_integer d.pages)
  have text := field "text" (.text d.text) toText (by simp) rfl
  have table : ∃ table, fieldIfPresent fields "page_offsets" (toOptional toOffsets) = .ok table ∧
      table.join = d.pageOffsets := by
    cases ho : d.pageOffsets with
    | none =>
      refine ⟨none, fieldIfPresent_of_notMem ?_, rfl⟩
      rw [(hperm.map Prod.fst).mem_iff, ho]
      simp
    | some offsets =>
      have taken := congrArg (Except.map some) (toOffsets_integers (hfit offsets ho))
      have stored := field "page_offsets" (.array (offsets.map fun (o : Nat) => .integer o)) (toOptional toOffsets)
        (by rw [ho]; simp) taken
      exact ⟨some (some offsets), stored, rfl⟩
  obtain ⟨table, table_eq, joined⟩ := table
  simp only [Document.ofJson, ofFields, id, dataset, filename, filepath, pages, text, table_eq, bind, Except.bind,
    present, pure, Except.pure, Option.getD_some, joined]

theorem readable_toJson {d : Document} (depth : Nat)
    (hfit : ∀ offsets, d.pageOffsets = some offsets → ∀ o ∈ offsets, o < UInt64.size) :
    Readable (depth + 2) d.toJson := by
  have small (n : UInt32) : Readable (depth + 1) (.integer n.toNat) :=
    .integer _ (isInteger64_of_lt (n.toNat_lt_size.trans (by decide)))
  refine .object (nodup_names rfl) (List.forall_mem_append.2 ⟨?_, ?_⟩)
  · simp only [List.forall_mem_cons]
    exact ⟨small _, small _, .text _ _, .text _ _, small _, .text _ _, fun _ h => nomatch h⟩
  · cases ho : d.pageOffsets with
    | none => exact fun _ h => nomatch h
    | some offsets =>
      rw [List.forall_mem_singleton]
      refine .array (List.forall_mem_map.2 fun o h => ?_)
      exact .integer _ (isInteger64_of_lt (hfit offsets ho o h))

end Document

/-! ## Records -/

theorem Record.accept_of_isAt {position : Nat} {d : Document} (h : (Record.valid d).IsAt position) :
    accept position d = .valid d := by
  obtain ⟨number, fits⟩ := h
  have kept : (d.pageOffsets.filter fun offsets => (Page.fault? offsets d.text.length).isNone) = d.pageOffsets := by
    cases ho : d.pageOffsets with
    | none => rfl
    | some offsets =>
      rw [Option.filter_some, Page.fault?_eq_none_iff.2 (fits offsets ho)]
      rfl
  rw [accept, kept, ← number]

namespace Corpus

theorem records_of_errors_eq_nil {c : Corpus} (h : c.errors = []) : c.records = c.documents.map .valid := by
  unfold errors documents at *
  generalize c.records = records at *
  induction records with
  | nil => rfl
  | cons r rest ih =>
    cases r with
    | invalid e => cases h
    | valid d => exact congrArg (Record.valid d :: ·) (ih h)

/-- Documents of a corpus without errors are numbered as they are, and their tables fit. -/
theorem InPlace.mapIdx_accept {c : Corpus} (h : c.InPlace) (he : c.errors = []) :
    c.documents.mapIdx Record.accept = c.records := by
  have records := records_of_errors_eq_nil he
  apply List.ext_getElem?
  intro position
  rw [List.getElem?_mapIdx, records, List.getElem?_map]
  cases hd : c.documents[position]? with
  | none => rfl
  | some d =>
    have here : c.records[position]? = some (.valid d) := by rw [records, List.getElem?_map, hd]; rfl
    exact congrArg some (Record.accept_of_isAt (h position _ here))

theorem mapIdx_eq_of_forall₂ {α β γ : Type} {R : α → β → Prop} {as : List α} {bs : List β} (h : List.Forall₂ R as bs)
    {f : Nat → α → γ} {g : Nat → β → γ} (hfg : ∀ i a b, R a b → f i a = g i b) : as.mapIdx f = bs.mapIdx g := by
  induction h generalizing f g with
  | nil => rfl
  | cons hab _ ih => rw [List.mapIdx_cons, List.mapIdx_cons, hfg 0 _ _ hab, ih fun i => hfg (i + 1)]

/-- A text with the objects of documents makes the same corpus as the documents. -/
theorem ofText_of_writes {docs : List Document}
    (hfit : ∀ d ∈ docs, ∀ offsets, d.pageOffsets = some offsets → ∀ o ∈ offsets, o < UInt64.size)
    {text : String} {values : List Json} (parsed : Json.parse? text = some (.array values))
    (h : List.Forall₂ Document.Writes values docs) (source : Option String) :
    ofText source text = .ok { ofDocuments docs with source } := by
  have decoded : List.Forall₂ (fun v d => Document.ofJson v = .ok d) values docs := by
    clear parsed
    induction h with
    | nil => exact .nil
    | cons hv _ ih =>
      exact .cons (hv.ofJson (hfit _ List.mem_cons_self)) (ih fun d hd => hfit d (List.mem_cons_of_mem _ hd))
  have records : flatRecords values = docs.mapIdx Record.accept :=
    mapIdx_eq_of_forall₂ decoded fun i v d hv => by rw [hv, Record.ofDecoded]
  simp only [ofText, parsed, ofJson, records, ofDocuments]

/--
The flat format gives documents back: a text that holds their objects, with the fields of each in any order, makes the
corpus that the documents make themselves, and so does the text that their array is written as. If the documents are
those of a corpus without errors, the corpus read back has the same records and the same documents.
-/
theorem flat_format_reads_back {docs : List Document}
    (hfit : ∀ d ∈ docs, ∀ offsets, d.pageOffsets = some offsets → ∀ o ∈ offsets, o < UInt64.size) :
    (∀ (source : Option String) (text : String) (values : List Json), Json.parse? text = some (.array values) →
      List.Forall₂ Document.Writes values docs → ofText source text = .ok { ofDocuments docs with source }) ∧
    (∀ source, ofText source (Json.array (docs.map Document.toJson)).pretty =
      .ok { ofDocuments docs with source }) ∧
    ∀ c : Corpus, c.Loaded → c.errors = [] → c.documents = docs → ∀ source, ∃ back,
      ofText source (Json.array (docs.map Document.toJson)).pretty = .ok back ∧ back.records = c.records ∧
        back.documents = docs := by
  have pretty (source : Option String) : ofText source (Json.array (docs.map Document.toJson)).pretty =
      .ok { ofDocuments docs with source } := by
    have readable : Json.Readable Json.maxDepth (.array (docs.map Document.toJson)) :=
      .array (List.forall_mem_map.2 fun d hd => Document.readable_toJson 124 (hfit d hd))
    have written : List.Forall₂ Document.Writes (docs.map Document.toJson) docs := by
      rw [List.forall₂_map_left_iff, List.forall₂_same]
      exact fun d _ => d.writes_toJson
    exact ofText_of_writes hfit (Json.parse?_pretty readable) written source
  refine ⟨fun source text values parsed h => ofText_of_writes hfit parsed h source, pretty, ?_⟩
  rintro c hc he rfl source
  have records : (ofDocuments c.documents).records = c.records := hc.inPlace.mapIdx_accept he
  refine ⟨_, pretty source, records, ?_⟩
  show (ofDocuments c.documents).records.filterMap Record.document? = c.documents
  rw [records, documents]

/-- Quotes, a line break and a control character; tables that start too late, that are empty and that fit. -/
def notebook : List Document :=
  [⟨9, 1, "a \"b\"", "a\\\n", 2, "\u0001x", some [1]⟩, ⟨0, 4294967295, "", "", 0, "", some []⟩,
    ⟨9, 3, "c", "c", 1, "x", some [0]⟩]

/-- The first table is dropped and the documents are numbered; written once more, they come back as they are. -/
theorem flat_format_reads_back_notebook :
    (∀ d ∈ notebook, ∀ offsets, d.pageOffsets = some offsets → ∀ o ∈ offsets, o < UInt64.size) ∧
    ofText none (Json.array (notebook.map Document.toJson)).pretty = .ok (ofDocuments notebook) ∧
    (ofDocuments notebook).documents.map (fun d => (d.id, d.pageOffsets)) = [(1, none), (2, some []), (3, some [0])] ∧
    (ofDocuments notebook).errors = [] ∧
    ∃ back, ofText none (Json.array ((ofDocuments notebook).documents.map Document.toJson)).pretty = .ok back ∧
      back.documents = (ofDocuments notebook).documents := by
  have fits : ∀ d ∈ notebook, ∀ offsets ∈ d.pageOffsets, ∀ o ∈ offsets, o < UInt64.size := by decide
  have fitsAgain : ∀ d ∈ (ofDocuments notebook).documents, ∀ offsets ∈ d.pageOffsets, ∀ o ∈ offsets,
      o < UInt64.size := by decide +kernel
  obtain ⟨back, read, -, same⟩ := (flat_format_reads_back fitsAgain).2.2 _ (.documents notebook) rfl rfl none
  exact ⟨fits, (flat_format_reads_back fits).2.1 none, by decide +kernel, rfl, back, read, same⟩

end Corpus

end Concordance
