/-
Looking positions up. A table that passes the check names the page of a position by counting: it is the number of
pages that start at or before the position, or the last page if there are fewer. So the page named has started,
the next one has not, and a later position is on no earlier page. A table out of order names some page, but never
one beyond the last.
-/
import Concordance.Proofs.Page

namespace Concordance.Page

variable {offsets : List Nat} {position : Nat}

/-! ## The last page -/

/-- How many pages there are: the stated number, or if none is stated that of the table's entries. -/
def pageCount (offsets : List Nat) (pages : UInt32) : Nat := if 0 < pages then pages.toNat else offsets.length

theorem pageCount_pos (h : offsets ≠ []) (pages : UInt32) : 0 < pageCount offsets pages := by
  unfold pageCount
  split
  · rename_i stated
    exact UInt32.lt_iff_toNat_lt.1 stated
  · exact List.length_pos_iff.2 h

theorem pageAt_eq (offsets : List Nat) (position : Nat) (pages : UInt32) :
    pageAt offsets position pages =
      min (startedPages offsets position - 1) (max (pageCount offsets pages) 1 - 1) + 1 := rfl

/-- Whatever the table, the answer is a page. -/
theorem pageAt_bounds (offsets : List Nat) (position : Nat) (pages : UInt32) :
    1 ≤ pageAt offsets position pages ∧ pageAt offsets position pages ≤ max (pageCount offsets pages) 1 := by
  rw [pageAt_eq]
  constructor <;> omega

/-- Page numbers stay within 32 bits: stated numbers do, and so does the length of a table that is not longer. -/
theorem pageAt_lt_size {pages : UInt32} (h : 0 < pages ∨ offsets.length < UInt32.size) (position : Nat) :
    pageAt offsets position pages < UInt32.size := by
  have small : pageCount offsets pages < UInt32.size := by
    unfold pageCount
    split
    · exact pages.toNat_lt_size
    · rename_i unstated
      exact h.resolve_left unstated
  have one : 1 < UInt32.size := by decide
  have := (pageAt_bounds offsets position pages).2
  omega

/-! ## Pages that have started -/

/-- In a rising table the pages counted are the first ones. -/
theorem lt_countP_iff (rising : offsets.Pairwise (· ≤ ·)) {i start : Nat} (h : offsets[i]? = some start) :
    i < offsets.countP (· ≤ position) ↔ start ≤ position := by
  induction offsets generalizing i with
  | nil => cases h
  | cons first rest ih =>
    obtain ⟨least, later⟩ := List.pairwise_cons.1 rising
    by_cases started : first ≤ position
    · rw [List.countP_cons_of_pos (by simpa using started)]
      cases i with
      | zero =>
        cases h
        simpa using started
      | succ i =>
        rw [Nat.succ_lt_succ_iff]
        exact ih later h
    · -- no page has started, since none starts before the first
      have none : (first :: rest).countP (· ≤ position) = 0 := by
        rw [List.countP_eq_zero]
        intro o ho
        rcases List.mem_cons.1 ho with rfl | ho
        · simpa using started
        · have := least o ho
          simp only [decide_eq_true_eq]
          omega
      have le : first ≤ start := by
        rcases List.mem_cons.1 (List.mem_of_getElem? h) with rfl | hs
        · exact Nat.le_refl _
        · exact least start hs
      rw [none]
      omega

/-- The first page has always started. -/
theorem countP_pos_of_head? (h : offsets.head? = some 0) (position : Nat) : 0 < offsets.countP (· ≤ position) := by
  cases offsets with
  | nil => cases h
  | cons first rest =>
    cases h
    rw [List.countP_cons_of_pos (by simp)]
    omega

/-- More pages have started later on. -/
theorem countP_mono (offsets : List Nat) {p q : Nat} (h : p ≤ q) :
    offsets.countP (· ≤ p) ≤ offsets.countP (· ≤ q) := by
  apply List.countP_mono_left
  intro o _ ho
  simp only [decide_eq_true_eq] at ho ⊢
  omega

theorem pageAt_eq_min (first : offsets.head? = some 0) (rising : offsets.Pairwise (· ≤ ·)) (position : Nat)
    (pages : UInt32) :
    pageAt offsets position pages = min (offsets.countP (· ≤ position)) (pageCount offsets pages) := by
  have started := countP_pos_of_head? first position
  have some : 0 < pageCount offsets pages := pageCount_pos (by rintro rfl; cases first) pages
  rw [pageAt_eq, startedPages_eq_countP rising]
  omega

/--
Looking a position up in a table with entries that passes the check counts the pages that start at or before the
position, up to the last page there is. The answer rises with the position and is one of the pages; that page starts
at or before the position, and unless the count went beyond the last page the next one starts after it. Any list of
offsets at all answers with a page, and with a number of 32 bits unless the list itself is longer.
-/
theorem pageAt_counts_started (offsets : List Nat) (pages : UInt32) :
    (∀ textLength, offsets ≠ [] → fault? offsets textLength = none →
      (∀ position,
        pageAt offsets position pages = min (offsets.countP (· ≤ position)) (pageCount offsets pages)) ∧
      (∀ p q, p ≤ q → pageAt offsets p pages ≤ pageAt offsets q pages) ∧
      ∀ position, 1 ≤ pageAt offsets position pages ∧ pageAt offsets position pages ≤ pageCount offsets pages ∧
        (∃ start, offsets[pageAt offsets position pages - 1]? = some start ∧ start ≤ position) ∧
        (offsets.countP (· ≤ position) ≤ pageCount offsets pages →
          ∀ next, offsets[pageAt offsets position pages]? = some next → position < next)) ∧
    ∀ position, 1 ≤ pageAt offsets position pages ∧
      pageAt offsets position pages ≤ max (pageCount offsets pages) 1 ∧
      (0 < pages ∨ offsets.length < UInt32.size → pageAt offsets position pages < UInt32.size) := by
  constructor
  · intro textLength hne passes
    obtain ⟨first, rising, -⟩ := (fault?_eq_none_iff.1 passes).resolve_left hne
    have count := fun position => pageAt_eq_min first rising position pages
    refine ⟨count, fun p q h => ?_, fun position => ?_⟩
    · have := countP_mono offsets h
      rw [count, count]
      omega
    · have started := countP_pos_of_head? first position
      have some := pageCount_pos hne pages
      have inside : offsets.countP (· ≤ position) ≤ offsets.length := List.countP_le_length
      rw [count]
      refine ⟨by omega, by omega, ?_, fun unclamped next hnext => ?_⟩
      · have hlt : min (offsets.countP (· ≤ position)) (pageCount offsets pages) - 1 < offsets.length := by omega
        have entry := List.getElem?_eq_getElem hlt
        exact ⟨_, entry, (lt_countP_iff rising entry).1 (by omega)⟩
      · rw [Nat.min_eq_left unclamped] at hnext
        by_contra started
        have := (lt_countP_iff rising hnext).2 (Nat.le_of_not_lt started)
        omega
  · intro position
    obtain ⟨low, high⟩ := pageAt_bounds offsets position pages
    exact ⟨low, high, fun h => pageAt_lt_size h position⟩

/-- An empty page, and a last entry past the text that makes one page more than are stated. -/
theorem pageAt_after_empty_page :
    fault? [0, 4, 4, 9] 8 = none ∧ pageAt [0, 4, 4, 9] 3 3 = 1 ∧ pageAt [0, 4, 4, 9] 4 3 = 3 ∧
      pageAt [0, 4, 4, 9] 9 3 = 3 ∧ pageAt [0, 4, 4, 9] 9 0 = 4 ∧ pageAt [0, 4, 4, 9] 9 0 < UInt32.size := by
  have passes : fault? [0, 4, 4, 9] 8 = none := by decide
  have stated := ((pageAt_counts_started [0, 4, 4, 9] 3).1 8 (by simp) passes).1
  have unstated := pageAt_counts_started [0, 4, 4, 9] 0
  have small := (unstated.2 9).2.2 (.inr (by decide))
  refine ⟨passes, ?_, ?_, ?_, ?_, small⟩
  · rw [stated]
    decide
  · rw [stated]
    decide
  · rw [stated]
    decide
  · rw [(unstated.1 8 (by simp) passes).1]
    decide

end Concordance.Page
