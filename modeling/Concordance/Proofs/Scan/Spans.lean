/-
Which documents a scan finds. A literal that may be part of a word is found in a text exactly if the text
holds it up to case, whatever other occurrences the scan has passed; and a pair of literals is found exactly
if some span of the one is close to some span of the other, since the limit on pairs never drops the first.
-/
import Concordance.Merge
import Concordance.Scan.Scanner
import Concordance.Proofs.Merge.Group
import Mathlib.Data.List.Basic
import Mathlib.Data.List.ProdSigma
import Mathlib.Tactic

namespace Concordance

open Text

namespace Scan.Pattern

variable {p : Pattern}

/-! ## Occurrences -/

/-- A text starts with a literal if it does so in the form in which letters are compared. -/
theorem startsWith_iff : ∀ {letters s : List Char},
    p.startsWith letters s = true ↔ letters.map p.form <+: s.map p.form
  | [], s => by simp [startsWith]
  | a :: letters, [] => by simp [startsWith]
  | a :: letters, c :: rest => by
    have ih : p.startsWith letters rest = true ↔ letters.map p.form <+: rest.map p.form := startsWith_iff
    rw [startsWith, Bool.and_eq_true, beq_iff_eq, ih, List.map_cons, List.map_cons, List.cons_prefix_cons]

theorem occursAt_iff (hw : p.wholeWord = false) {before : Option Char} {s : List Char} :
    p.occursAt before s = true ↔ p.letters.map p.form <+: s.map p.form := by
  simp [occursAt, hw, startsWith_iff]

theorem spansFrom_ne_nil_iff (hw : p.wholeWord = false) :
    ∀ {s : List Char} {before : Option Char} {bytes : Nat},
      p.spansFrom before bytes 0 s ≠ [] ↔ p.letters.map p.form <:+: s.map p.form
  | [], before, bytes => by
    have here : (decide (0 = 0) && p.occursAt before []) = true ↔ _ := occursAt_iff hw
    rw [spansFrom]
    split
    · rename_i found
      rw [here] at found
      exact ⟨fun _ => found.isInfix, fun _ => List.cons_ne_nil _ _⟩
    · rename_i found
      rw [here] at found
      refine ⟨fun h => absurd rfl h, fun h => absurd ?_ found⟩
      exact (List.eq_nil_of_infix_nil h).symm ▸ List.nil_prefix
  | c :: rest, before, bytes => by
    have here : (decide (0 = 0) && p.occursAt before (c :: rest)) = true ↔ _ := occursAt_iff hw
    rw [spansFrom]
    split
    · rename_i found
      rw [here] at found
      exact ⟨fun _ => found.isInfix, fun _ => List.cons_ne_nil _ _⟩
    · rename_i found
      rw [here] at found
      rw [spansFrom_ne_nil_iff hw, List.map_cons, List.infix_cons_iff]
      exact ⟨.inr, fun h => h.resolve_left found⟩

/-- A literal has a span in a text exactly if the text holds it, up to case if case does not matter. -/
theorem spans_ne_nil_iff (hw : p.wholeWord = false) {text : List Char} :
    p.spans text ≠ [] ↔ p.letters.map p.form <:+: text.map p.form :=
  spansFrom_ne_nil_iff hw

end Scan.Pattern

open Scan

namespace Scanner

/-! ## Pairs -/

theorem takeWhere_eq_take {α : Type} (q : α → Bool) :
    ∀ (n : Nat) (list : List α), takeWhere q n list = (list.filter q).take n
  | 0, _ => by rw [takeWhere, List.take_zero]
  | _ + 1, [] => rfl
  | n + 1, a :: rest => by
    rw [takeWhere]
    cases ha : q a with
    | true => rw [if_pos rfl, takeWhere_eq_take q n rest, List.filter_cons_of_pos ha, List.take_succ_cons]
    | false => rw [if_neg Bool.false_ne_true, takeWhere_eq_take q (n + 1) rest, List.filter_cons_of_neg (by simp [ha])]

/-- Stopping at the limit, in the middle of a row or behind it, leaves the first of all close pairs. -/
theorem closePairs_eq_take (close : Span → Span → Bool) (bs : List Span) : ∀ (as : List Span) (n : Nat),
    closePairs close n as bs = ((as ×ˢ bs).filter fun x => close x.1 x.2).take n
  | [], n => by rw [closePairs, List.nil_product, List.filter_nil, List.take_nil]
  | a :: rest, n => by
    have row : (bs.map fun b => (a, b)).filter (fun x => close x.1 x.2) = (bs.filter (close a)).map fun b => (a, b) :=
      List.filter_map ..
    have left : n - min n (bs.filter (close a)).length = n - (bs.filter (close a)).length := by omega
    rw [closePairs, takeWhere_eq_take, List.product_cons, List.filter_append, row, List.take_append, List.map_take]
    simp only [List.length_map, List.length_take, left, closePairs_eq_take close bs rest]

/-- Pairs are listed unless there are none: the limit drops none before one is listed. -/
theorem closePairs_ne_nil {close : Span → Span → Bool} {n : Nat} (hn : 0 < n) {as bs : List Span} :
    closePairs close n as bs ≠ [] ↔ ∃ a ∈ as, ∃ b ∈ bs, close a b = true := by
  rw [closePairs_eq_take, ne_eq, List.take_eq_nil_iff, not_or, List.filter_eq_nil_iff, and_iff_right hn.ne']
  simp only [Prod.forall, List.mem_product, not_forall, not_not, exists_prop, and_assoc, exists_and_left]

theorem mem_closePairs {close : Span → Span → Bool} {as bs : List Span} {n : Nat} {x y : Span}
    (h : (x, y) ∈ closePairs close n as bs) : x ∈ as ∧ y ∈ bs ∧ close x y = true := by
  rw [closePairs_eq_take] at h
  obtain ⟨listed, near⟩ := List.mem_filter.1 (List.mem_of_mem_take h)
  obtain ⟨hx, hy⟩ := List.mem_product.1 listed
  exact ⟨hx, hy, near⟩

/-! ## Hits -/

variable (s : Scanner)

theorem exists_hit?_iff (d : Document) (found : List (Span × String)) :
    (∃ h, s.hit? d found = some h) ↔ found ≠ [] := by
  unfold hit?
  cases found <;> simp

@[simp] theorem length_charOffsets :
    ∀ (places : List Nat) (k : Cursor), (k.charOffsets places).length = places.length
  | [], _ => rfl
  | byte :: rest, k => by simp [Cursor.charOffsets, length_charOffsets rest]

/-- A hit carries what is known of its document. -/
theorem document_of_hit? {d : Document} {found : List (Span × String)} {h : Hit}
    (hh : s.hit? d found = some h) : h.dataset = d.dataset ∧ h.filename = d.filename := by
  unfold hit? at hh
  split at hh
  · cases hh
  · cases hh
    exact ⟨rfl, rfl⟩

/-- Every context of a hit is a match that it counts. -/
theorem matchCount_of_hit? {d : Document} {found : List (Span × String)} {h : Hit}
    (hh : s.hit? d found = some h) : h.matchCount = h.contexts.length := by
  unfold hit? at hh
  split at hh
  · cases hh
  · cases hh
    simp [Document.hit, contexts]

theorem matchCount_pos_of_hit? {d : Document} {found : List (Span × String)} {h : Hit}
    (hh : s.hit? d found = some h) : 0 < h.matchCount := by
  unfold hit? at hh
  split at hh
  · cases hh
  · rename_i hne
    cases hh
    rw [List.isEmpty_iff] at hne
    exact List.length_pos_iff.2 hne

/-! ## Searches -/

theorem matchCount_of_search {t : Term} {h : Hit} (hh : h ∈ s.search t) : h.matchCount = h.contexts.length := by
  obtain ⟨d, -, hd⟩ := List.mem_filterMap.1 hh
  exact s.matchCount_of_hit? hd

theorem matchCount_of_searchProximity {a b : Term} {n : UInt32} {h : Hit} (hh : h ∈ s.searchProximity a b n) :
    h.matchCount = h.contexts.length := by
  obtain ⟨d, -, hd⟩ := List.mem_filterMap.1 hh
  exact s.matchCount_of_hit? hd

/-- The files of a scan are those of the documents in which it finds something. -/
theorem mem_filesOf_filterMap {found : Document → List (Span × String)} {f : String} :
    f ∈ filesOf (s.documents.filterMap fun d => s.hit? d (found d)) ↔
      ∃ d ∈ s.documents, d.filename = f ∧ found d ≠ [] := by
  rw [mem_filesOf]
  constructor
  · rintro ⟨h, hh, rfl⟩
    obtain ⟨d, hd, hf⟩ := List.mem_filterMap.1 hh
    exact ⟨d, hd, (s.document_of_hit? hf).2.symm, (s.exists_hit?_iff d _).1 ⟨h, hf⟩⟩
  · rintro ⟨d, hd, rfl, hf⟩
    obtain ⟨h, hh⟩ := (s.exists_hit?_iff d _).2 hf
    exact ⟨h, List.mem_filterMap.2 ⟨d, hd, hh⟩, (s.document_of_hit? hh).2⟩

/-- A term is found in the documents in which its pattern has a span. -/
theorem mem_filesOf_search {t : Term} {f : String} :
    f ∈ filesOf (s.search t) ↔
      ∃ d ∈ s.documents, d.filename = f ∧ (s.pattern t s.options.wholeWord).spans d.text.toList ≠ [] := by
  refine s.mem_filesOf_filterMap.trans ?_
  simp only [ne_eq, List.map_eq_nil_iff]

/-- A pair is found in the documents in which a span of the one term is close to one of the other. -/
theorem mem_filesOf_searchProximity {a b : Term} {n : UInt32} {f : String} :
    f ∈ filesOf (s.searchProximity a b n) ↔
      ∃ d ∈ s.documents, d.filename = f ∧
        ∃ x ∈ (s.pattern a false).spans d.text.toList, ∃ y ∈ (s.pattern b false).spans d.text.toList,
          isClose d.text.toList n.toNat x y = true := by
  refine s.mem_filesOf_filterMap.trans ?_
  have limit : 0 < maxPairs := by decide
  simp only [ne_eq, List.map_eq_nil_iff]
  simp only [closePairs_ne_nil limit]

end Scanner

end Concordance
