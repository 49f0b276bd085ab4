/-
Exported files can be read back. Whatever characters the names of documents hold, a reader of CSV finds the header
and behind it a record of four fields for each hit, and a reader of JSON finds an array with an object of five fields
for each hit. So an export tells apart hits that differ in what it lists.
-/
import Concordance.Proofs.Json.RoundTrip
import Concordance.Proofs.Output.CsvReader

namespace Concordance

open Text

/-- Do two hits agree in what an export as CSV lists? -/
structure Hit.SameRow (a b : Hit) : Prop where
  filename : a.filename = b.filename
  dataset : a.dataset = b.dataset
  pages : a.pages = b.pages
  matchCount : a.matchCount = b.matchCount

namespace Output

/-- Two lists with the same rows have the same length, and their members are related if their rows are the same. -/
theorem forall₂_of_map_eq {α β : Type} {row : α → β} {R : α → α → Prop} (related : ∀ a b, row a = row b → R a b)
    {l l' : List α} (h : l.map row = l'.map row) : List.Forall₂ R l l' := by
  have rows : List.Forall₂ (· = ·) (l.map row) (l'.map row) := List.forall₂_eq_eq_eq ▸ h
  rw [List.forall₂_map_left_iff, List.forall₂_map_right_iff] at rows
  exact rows.imp related

/-! ## CSV -/

theorem writesField_csvField (s : List Char) : Csv.WritesField (csvField s) s := by
  unfold csvField
  split
  · exact .quoted s
  · rename_i plain
    refine .bare fun c hc => ?_
    by_contra quotes
    exact plain (List.any_eq_true.2 ⟨c, hc, by simpa using quotes⟩)

theorem writesLine_csvRecord {record : List (List Char)} (h : record ≠ []) :
    Csv.WritesLine (csvRecord record) record := by
  have fields : List.Forall₂ Csv.WritesField (record.map csvField) record :=
    List.forall₂_map_left_iff.2 (List.forall₂_same.2 fun s _ => writesField_csvField s)
  exact ⟨_, ⟨_, by simpa using h, rfl, fields⟩, .inl rfl⟩

theorem read?_csv (hits : List Hit) :
    Csv.read? (csv hits).toList = some (csvHeader.map String.toList :: hits.map csvRow) := by
  have lines : List.Forall₂ Csv.WritesLine
      ((csvHeader.map String.toList :: hits.map csvRow).map csvRecord)
      (csvHeader.map String.toList :: hits.map csvRow) := by
    refine List.forall₂_map_left_iff.2 (List.forall₂_same.2 fun record hr => writesLine_csvRecord ?_)
    rcases List.mem_cons.1 hr with rfl | hr
    · exact List.cons_ne_nil _ _
    · obtain ⟨h, -, rfl⟩ := List.mem_map.1 hr
      exact List.cons_ne_nil _ _
  rw [csv, String.toList_ofList, List.flatMap_def]
  exact Csv.read?_of_writesTable ⟨_, _, lines, .inl ⟨rfl, rfl⟩⟩

theorem sameRow_of_csvRow_eq {a b : Hit} (h : csvRow a = csvRow b) : a.SameRow b := by
  simp only [csvRow, List.cons.injEq, String.toList_inj, and_true] at h
  obtain ⟨filename, dataset, pages, matchCount⟩ := h
  exact ⟨filename, UInt32.toNat_inj.1 (decimal_injective dataset), UInt32.toNat_inj.1 (decimal_injective pages),
    decimal_injective matchCount⟩

/-! ## JSON -/

theorem readable_jsonRow {h : Hit} (counted : h.matchCount < UInt64.size) : Json.Readable 126 (jsonRow h) := by
  have small (n : UInt32) : Json.IsInteger64 n.toNat := Json.isInteger64_of_lt (n.toNat_lt.trans (by decide))
  refine .object (by simp) fun f hf => ?_
  simp only [List.mem_cons, List.not_mem_nil, or_false] at hf
  rcases hf with rfl | rfl | rfl | rfl | rfl
  · exact .text _ _
  · exact .integer _ (small h.dataset)
  · exact .integer _ (small h.pages)
  · exact .integer _ (Json.isInteger64_of_lt counted)
  · exact .text _ _

theorem parse?_json {hits : List Hit} (counted : ∀ h ∈ hits, h.matchCount < UInt64.size) :
    Json.parse? (json hits) = some (.array (hits.map jsonRow)) := by
  have readable : Json.Readable Json.maxDepth (.array (hits.map jsonRow)) :=
    .array (List.forall_mem_map.2 fun h hh => readable_jsonRow (counted h hh))
  refine Json.parse?_pretty_append readable fun c hc => ?_
  rw [List.mem_singleton.1 (show c ∈ ['\n'] from hc)]
  rfl

theorem sameRow_of_jsonRow_eq {a b : Hit} (h : jsonRow a = jsonRow b) : a.SameRow b ∧ a.filepath = b.filepath := by
  simp only [jsonRow, Json.object.injEq, List.cons.injEq, Prod.mk.injEq, Json.text.injEq, Json.integer.injEq,
    true_and, and_true, Nat.cast_inj, UInt32.toNat_inj] at h
  obtain ⟨filename, dataset, pages, matchCount, filepath⟩ := h
  exact ⟨⟨filename, dataset, pages, matchCount⟩, filepath⟩

/-! ## Both formats -/

/--
An export as CSV is read as the header and the rows of the hits, and one as JSON as the objects of the hits, in their
order. Numbers of matches are numbers of 64 bits, and no greater ones are integers to a reader of JSON.
-/
theorem exportHits_readBack (hits : List Hit) :
    (Csv.read? (exportHits .csv hits).toList =
        some (["filename".toList, "dataset".toList, "pages".toList, "match_count".toList] :: hits.map fun h =>
          [h.filename.toList, decimal h.dataset.toNat, decimal h.pages.toNat, decimal h.matchCount]) ∧
      ∀ others, exportHits .csv hits = exportHits .csv others → List.Forall₂ Hit.SameRow hits others) ∧
    ((∀ h ∈ hits, h.matchCount < UInt64.size) →
      Json.parse? (exportHits .json hits) =
        some (.array (hits.map fun h => .object
          [("filename", .text h.filename), ("dataset", .integer h.dataset.toNat), ("pages", .integer h.pages.toNat),
            ("match_count", .integer h.matchCount), ("filepath", .text h.filepath)])) ∧
      ∀ others, (∀ h ∈ others, h.matchCount < UInt64.size) → exportHits .json hits = exportHits .json others →
        List.Forall₂ (fun a b => a.SameRow b ∧ a.filepath = b.filepath) hits others) := by
  refine ⟨⟨read?_csv hits, fun others same => ?_⟩, fun counted => ⟨parse?_json counted, fun others counted' same => ?_⟩⟩
  · have tables := read?_csv hits
    rw [show csv hits = csv others from same, read?_csv others] at tables
    exact forall₂_of_map_eq (fun _ _ => sameRow_of_csvRow_eq) (List.cons.inj (Option.some.inj tables)).2.symm
  · have arrays := parse?_json counted
    rw [show json hits = json others from same, parse?_json counted'] at arrays
    have rows := Json.array.inj (Option.some.inj arrays)
    exact forall₂_of_map_eq (fun _ _ => sameRow_of_jsonRow_eq) rows.symm

/-- Hits with commas, quotes, line breaks and control characters in their names, or with no name. -/
def awkward : List Hit :=
  [⟨1, "say \"a,b\"\r\n.pdf", "DataSet 1/\x01\\", 2, 3, []⟩, ⟨2, "", "", 0, 1, []⟩]

theorem exportHits_readBack_awkward :
    (∀ h ∈ awkward, h.matchCount < UInt64.size) ∧
      Csv.read? (exportHits .csv awkward).toList =
        some (["filename".toList, "dataset".toList, "pages".toList, "match_count".toList] ::
          [["say \"a,b\"\r\n.pdf".toList, ['1'], ['2'], ['3']], ["".toList, ['2'], ['0'], ['1']]]) ∧
      Json.parse? (exportHits .json awkward) =
        some (.array
          [.object [("filename", .text "say \"a,b\"\r\n.pdf"), ("dataset", .integer 1), ("pages", .integer 2),
            ("match_count", .integer 3), ("filepath", .text "DataSet 1/\x01\\")],
           .object [("filename", .text ""), ("dataset", .integer 2), ("pages", .integer 0),
            ("match_count", .integer 1), ("filepath", .text "")]]) := by
  have counted : ∀ h ∈ awkward, h.matchCount < UInt64.size := by decide
  have digits : decimal 0 = ['0'] ∧ decimal 1 = ['1'] ∧ decimal 2 = ['2'] ∧ decimal 3 = ['3'] := by decide +kernel
  obtain ⟨zero, one, two, three⟩ := digits
  obtain ⟨⟨rows, -⟩, objects⟩ := exportHits_readBack awkward
  refine ⟨counted, rows.trans ?_, (objects counted).1⟩
  simp only [awkward, List.map_cons, List.map_nil, UInt32.toNat_ofNat, zero, one, two, three]

end Output

end Concordance
