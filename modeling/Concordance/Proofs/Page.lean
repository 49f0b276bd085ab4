/-
Page tables and form feeds. Looking a position up in a rising table counts the pages that start at or before
it. The table derived from a text starts a page behind every form feed, so it says of a position that it is
on the page after as many pages as there are form feeds before it; and it passes its own check.
-/
import Concordance.Document
import Concordance.Proofs.Text.Pieces
import Mathlib.Data.List.Basic
import Mathlib.Tactic

namespace Concordance

open Text

namespace Page

/-! ## Looking a position up -/

/--
On a range that starts with the entries satisfying `p`, halving finds the first that fails: those before it
satisfy `p`, and those from it on do not.
-/
theorem bisect_spec {p : Nat → Bool} (base : Nat) {size : Nat} (hs : 0 < size)
    (falls : ∀ i j, base ≤ i → i ≤ j → j < base + size → p j = true → p i = true) :
    base ≤ bisect p base size ∧ bisect p base size ≤ base + size ∧
      ∀ i, base ≤ i → i < base + size → (p i = true ↔ i < bisect p base size) := by
  induction size using Nat.strongRecOn generalizing base with
  | ind size ih =>
    rw [bisect]
    by_cases one : size ≤ 1
    · -- a single entry
      have single : ∀ i, base ≤ i → i < base + size → i = base := by omega
      rw [if_pos one]
      split
      · rename_i holds
        refine ⟨by omega, by omega, fun i h h' => ?_⟩
        rw [single i h h', holds]
        simp
      · rename_i fails
        refine ⟨Nat.le_refl _, by omega, fun i h h' => ?_⟩
        rw [single i h h']
        simpa using fails
    · rw [if_neg one]
      dsimp only
      split
      · rename_i holds
        have upper := ih (size - size / 2) (by omega) (base + size / 2) (by omega)
          fun i j hi hij hj => falls i j (by omega) hij (by omega)
        refine ⟨by omega, by omega, fun i h h' => ?_⟩
        rcases Nat.lt_or_ge i (base + size / 2) with below | above
        · -- what comes before an entry that satisfies `p` satisfies it too
          have low : p i = true := falls i (base + size / 2) h below.le (by omega) holds
          simp only [low, true_iff]
          omega
        · exact upper.2.2 i above (by omega)
      · rename_i fails
        have lower := ih (size - size / 2) (by omega) base (by omega)
          fun i j hi hij hj => falls i j hi hij (by omega)
        refine ⟨lower.1, by omega, fun i h h' => ?_⟩
        rcases Nat.lt_or_ge i (base + (size - size / 2)) with below | above
        · exact lower.2.2 i h below
        · -- what comes behind an entry that fails `p` fails it too
          have high : ¬ p i = true := fun hi => fails (falls (base + size / 2) i (by omega) (by omega) h' hi)
          exact ⟨fun hi => absurd hi high, fun hi => absurd (hi.trans_le lower.2.1) (Nat.not_lt.2 above)⟩

/-- As many pages start at or before a position as entries of the table are not past it. -/
theorem startedPages_eq_countP {offsets : List Nat} (rising : offsets.Pairwise (· ≤ ·)) (position : Nat) :
    startedPages offsets position = offsets.countP (· ≤ position) := by
  unfold startedPages
  split
  · rename_i none
    rw [List.isEmpty_iff.1 none]
    rfl
  · rename_i some
    have hpos : 0 < offsets.length := List.length_pos_iff.2 (by simpa using some)
    have entry : ∀ i (h : i < offsets.length), offsets.getD i 0 = offsets[i] := fun i h => by simp [h]
    obtain ⟨-, hle, found⟩ := bisect_spec (p := fun i => offsets.getD i 0 ≤ position) 0 hpos
      (by
        intro i j _ hij hj hp
        rw [Nat.zero_add] at hj
        simp only [decide_eq_true_eq] at hp ⊢
        rw [entry i (by omega)]
        rw [entry j hj] at hp
        rcases Nat.lt_or_eq_of_le hij with h | rfl
        · exact (List.pairwise_iff_getElem.1 rising i j (by omega) hj h).trans hp
        · exact hp)
    generalize bisect (fun i => decide (offsets.getD i 0 ≤ position)) 0 offsets.length = r at hle found ⊢
    rw [Nat.zero_add] at hle found
    -- the entries before the cut count, and those behind it do not
    have before : (offsets.take r).countP (· ≤ position) = r := by
      rw [List.countP_eq_length.2, List.length_take, Nat.min_eq_left hle]
      intro o ho
      obtain ⟨i, hi, rfl⟩ := List.mem_iff_getElem.1 ho
      rw [List.length_take] at hi
      have := (found i (Nat.zero_le _) (by omega)).2 (by omega)
      rw [List.getElem_take]
      rwa [entry i (by omega)] at this
    have behind : (offsets.drop r).countP (· ≤ position) = 0 := by
      rw [List.countP_eq_zero]
      intro o ho
      obtain ⟨i, hi, rfl⟩ := List.mem_iff_getElem.1 ho
      rw [List.length_drop] at hi
      have := (found (r + i) (Nat.zero_le _) (by omega)).1
      rw [List.getElem_drop]
      rw [entry (r + i) (by omega)] at this
      exact fun h => absurd (this h) (by omega)
    conv => rhs; rw [← List.take_append_drop r offsets, List.countP_append, before, behind]
    rfl

/-! ## Tables derived from form feeds -/

/-- Where pages start behind the form feeds of a text that lies behind `position` characters. -/
def startsBehind (position : Nat) : List Char → List Nat
  | [] => []
  | c :: rest =>
    if c == pageBreak then (position + 1) :: startsBehind (position + 1) rest else startsBehind (position + 1) rest

theorem startsFrom_pieces : ∀ (text : List Char) (position : Nat),
    startsFrom position (pieces (· == pageBreak) text) = position :: startsBehind position text
  | [], _ => rfl
  | c :: rest, position => by
    have ih := startsFrom_pieces rest (position + 1)
    rw [startsBehind, pieces]
    split
    · rw [startsFrom, ← ih]
      rfl
    · obtain ⟨first, others, hp⟩ := exists_pieces_eq_cons (· == pageBreak) rest
      rw [hp, startsFrom, List.cons.injEq] at ih
      rw [hp, ← ih.2]
      simp only [startsFrom, List.length_cons]
      congr 2
      omega

theorem deriveOffsets_eq_cons (text : List Char) : deriveOffsets text = 0 :: startsBehind 0 text :=
  startsFrom_pieces text 0

theorem bounds_of_mem_startsBehind {o : Nat} : ∀ {text : List Char} {position : Nat},
    o ∈ startsBehind position text → position < o ∧ o ≤ position + text.length
  | c :: rest, position, h => by
    have ih : o ∈ startsBehind (position + 1) rest → position + 1 < o ∧ o ≤ position + 1 + rest.length :=
      bounds_of_mem_startsBehind
    have here : o = position + 1 ∨ o ∈ startsBehind (position + 1) rest := by
      rw [startsBehind] at h
      split at h
      · exact List.mem_cons.1 h
      · exact .inr h
    rw [List.length_cons]
    rcases here with rfl | h
    · omega
    · have := ih h
      omega

theorem pairwise_startsBehind : ∀ (text : List Char) (position : Nat), (startsBehind position text).Pairwise (· < ·)
  | [], _ => .nil
  | c :: rest, position => by
    have ih := pairwise_startsBehind rest (position + 1)
    rw [startsBehind]
    split
    · exact List.pairwise_cons.2 ⟨fun o ho => (bounds_of_mem_startsBehind ho).1, ih⟩
    · exact ih

theorem length_startsBehind : ∀ (text : List Char) (position : Nat),
    (startsBehind position text).length = text.count pageBreak
  | [], _ => rfl
  | c :: rest, position => by
    have ih := length_startsBehind rest (position + 1)
    rw [startsBehind, List.count_cons]
    split <;> simp_all

/-- The pages that start between two positions are as many as the form feeds there. -/
theorem countP_startsBehind : ∀ (text : List Char) (position n : Nat),
    (startsBehind position text).countP (· ≤ position + n) = (text.take n).count pageBreak
  | [], _, n => by simp [startsBehind]
  | c :: rest, position, 0 => by
    rw [List.take_zero, List.count_nil, List.countP_eq_zero]
    intro o ho
    have := (bounds_of_mem_startsBehind ho).1
    simpa using this
  | c :: rest, position, n + 1 => by
    have ih := countP_startsBehind rest (position + 1) n
    have reach : position + 1 + n = position + (n + 1) := by omega
    rw [reach] at ih
    rw [startsBehind, List.take_succ_cons, List.count_cons, ← ih]
    split
    · rw [List.countP_cons_of_pos (by simp)]
    · rfl

theorem length_deriveOffsets (text : List Char) : (deriveOffsets text).length = text.count pageBreak + 1 := by
  rw [deriveOffsets_eq_cons, List.length_cons, length_startsBehind]

theorem length_startsFrom : ∀ (texts : List (List Char)) (position : Nat),
    (startsFrom position texts).length = texts.length
  | [], _ => rfl
  | page :: rest, position => by rw [startsFrom, List.length_cons, length_startsFrom rest, List.length_cons]

theorem pairwise_deriveOffsets (text : List Char) : (deriveOffsets text).Pairwise (· ≤ ·) := by
  rw [deriveOffsets_eq_cons, List.pairwise_cons]
  exact ⟨fun _ _ => Nat.zero_le _, (pairwise_startsBehind text 0).imp Nat.le_of_lt⟩

/-! ## The check -/

/--
Does a page table fit a text of so many characters: has it no entries, or does it start with 0, never fall and
end at most one past the text?
-/
def Fits (offsets : List Nat) (textLength : Nat) : Prop :=
  offsets = [] ∨
    offsets.head? = some 0 ∧ offsets.Pairwise (· ≤ ·) ∧ ∀ last ∈ offsets.getLast?, last ≤ textLength + 1

/-- All starts of a table that fits lie at most one past the text. -/
theorem Fits.le {offsets : List Nat} {textLength o : Nat} (h : Fits offsets textLength) (ho : o ∈ offsets) :
    o ≤ textLength + 1 := by
  rcases h with rfl | ⟨-, rising, last⟩
  · cases ho
  · obtain ⟨init, l, rfl⟩ := (List.eq_nil_or_concat' offsets).resolve_left (List.ne_nil_of_mem ho)
    have end_le : l ≤ textLength + 1 := last l (by simp)
    rcases List.mem_append.1 ho with ho | ho
    · exact ((List.pairwise_append.1 rising).2.2 o ho l List.mem_cons_self).trans end_le
    · exact List.mem_singleton.1 ho ▸ end_le

theorem firstDecrease?_eq_none_iff : ∀ {offsets : List Nat} (index : Nat),
    firstDecrease? index offsets = none ↔ offsets.Pairwise (· ≤ ·)
  | [], _ => by simp [firstDecrease?]
  | [_], _ => by simp [firstDecrease?]
  | a :: b :: rest, index => by
    have ih := @firstDecrease?_eq_none_iff (b :: rest) (index + 1)
    rw [firstDecrease?]
    split
    · rename_i falls
      simp only [reduceCtorEq, false_iff]
      intro rising
      have le : a ≤ b := (List.pairwise_cons.1 rising).1 b List.mem_cons_self
      omega
    · rename_i rises
      rw [ih, List.pairwise_cons (a := a)]
      refine ⟨fun later => ⟨fun o ho => ?_, later⟩, fun h => h.2⟩
      rcases List.mem_cons.1 ho with rfl | ho
      · exact Nat.le_of_not_lt rises
      · exact (Nat.le_of_not_lt rises).trans ((List.pairwise_cons.1 later).1 o ho)

/-- The check finds no fault exactly in tables that fit. -/
theorem fault?_eq_none_iff {offsets : List Nat} {textLength : Nat} :
    fault? offsets textLength = none ↔ Fits offsets textLength := by
  unfold fault? Fits
  simp only [Option.orElse_eq_none, Option.map_eq_none_iff, Option.filter_eq_none_iff, firstDecrease?_eq_none_iff,
    decide_eq_true_eq, Nat.not_lt, not_not]
  cases offsets with
  | nil => simp
  | cons o rest => simp [Option.mem_def]

/-- A derived table fits its text. -/
theorem fits_deriveOffsets (text : List Char) : Fits (deriveOffsets text) text.length := by
  refine .inr ⟨by rw [deriveOffsets_eq_cons]; rfl, pairwise_deriveOffsets text, fun o ho => ?_⟩
  have hm := List.mem_of_getLast? ho
  rw [deriveOffsets_eq_cons] at hm
  rcases List.mem_cons.1 hm with rfl | hm
  · exact Nat.zero_le _
  · have := (bounds_of_mem_startsBehind hm).2
    omega

/-- A derived table passes the check for its text. -/
theorem fault?_deriveOffsets (text : List Char) : fault? (deriveOffsets text) text.length = none :=
  fault?_eq_none_iff.2 (fits_deriveOffsets text)

/-! ## Citing -/

/-- The last page of a document: that of its stated number of pages, or without one that of its last form feed. -/
def lastPage (text : List Char) (pages : UInt32) : Nat :=
  if 0 < pages then pages.toNat else (pieces (· == pageBreak) text).length

/-- A derived table counts form feeds: the page is one more than those before the position, up to the last. -/
theorem pageAt_deriveOffsets (text : List Char) (position : Nat) (pages : UInt32) :
    pageAt (deriveOffsets text) position pages =
      min (1 + (text.take position).count pageBreak) (lastPage text pages) := by
  have started : startedPages (deriveOffsets text) position = 1 + (text.take position).count pageBreak := by
    have behind := countP_startsBehind text 0 position
    rw [Nat.zero_add] at behind
    rw [startedPages_eq_countP (pairwise_deriveOffsets text), deriveOffsets_eq_cons,
      List.countP_cons_of_pos (by simp), behind, Nat.add_comm]
  have some : 0 < lastPage text pages := by
    unfold lastPage
    split
    · rename_i h
      exact UInt32.lt_iff_toNat_lt.1 h
    · rw [← length_startsFrom _ 0]
      show 0 < (deriveOffsets text).length
      rw [length_deriveOffsets]
      omega
  have last : (if 0 < pages then pages.toNat else (deriveOffsets text).length) = lastPage text pages := by
    rw [lastPage, deriveOffsets, length_startsFrom]
  show min (startedPages (deriveOffsets text) position - 1) (max (if _ then _ else _) 1 - 1) + 1 = _
  rw [started, last]
  omega

end Page

end Concordance
