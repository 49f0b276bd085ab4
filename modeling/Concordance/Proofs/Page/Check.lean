/-
Checking page tables. The check passes tables that have no entries, or that start with 0, never fall and end at most
one past the text; of any other table it names the first thing wrong: a first entry that is not 0, else the first
entry that is below the one before it, else a last entry past the text. The table derived from a text, which starts
a page at 0 and one behind each form feed, passes.
-/
import Concordance.Proofs.Page

namespace Concordance.Page

variable {offsets : List Nat}

/-! ## Falls -/

/-- Is the entry at `index` below the one before it? -/
def FallsAt (offsets : List Nat) (index previous current : Nat) : Prop :=
  ∃ i, index = i + 1 ∧ offsets[i]? = some previous ∧ offsets[i + 1]? = some current ∧ current < previous

/-- Is the entry at `index` the first one that is below the one before it? -/
def FirstFallsAt (offsets : List Nat) (index previous current : Nat) : Prop :=
  FallsAt offsets index previous current ∧ ∀ i < index, ∀ a b, ¬ FallsAt offsets i a b

/-- Is each entry at least the one before it? -/
def NeverFalls (offsets : List Nat) : Prop :=
  ∀ i previous current, offsets[i]? = some previous → offsets[i + 1]? = some current → previous ≤ current

/-- A table that never falls from one entry to the next rises throughout. -/
theorem neverFalls_iff_pairwise : NeverFalls offsets ↔ offsets.Pairwise (· ≤ ·) := by
  rw [← List.isChain_iff_pairwise, List.isChain_iff_getElem]
  constructor
  · intro h i hi
    exact h i _ _ (List.getElem?_eq_getElem (by omega)) (List.getElem?_eq_getElem hi)
  · intro h i previous current hp hc
    obtain ⟨_, rfl⟩ := List.getElem?_eq_some_iff.1 hp
    obtain ⟨hi, rfl⟩ := List.getElem?_eq_some_iff.1 hc
    exact h i hi

theorem not_fallsAt_zero (offsets : List Nat) (a b : Nat) : ¬ FallsAt offsets 0 a b := by
  rintro ⟨i, hi, -⟩
  omega

/-- Behind the first entry a table falls where the rest does. -/
theorem fallsAt_cons (o : Nat) (offsets : List Nat) (i a b : Nat) :
    FallsAt (o :: offsets) (i + 2) a b ↔ FallsAt offsets (i + 1) a b := by
  constructor
  · rintro ⟨j, hj, h⟩
    obtain rfl : j = i + 1 := by omega
    exact ⟨i, rfl, h⟩
  · rintro ⟨j, hj, h⟩
    obtain rfl : i = j := by omega
    exact ⟨i + 1, rfl, h⟩

theorem fallsAt_one_iff (o p : Nat) (rest : List Nat) (a b : Nat) :
    FallsAt (o :: p :: rest) 1 a b ↔ a = o ∧ b = p ∧ p < o := by
  constructor
  · rintro ⟨i, hi, ha, hb, falls⟩
    obtain rfl : i = 0 := by omega
    cases ha
    cases hb
    exact ⟨rfl, rfl, falls⟩
  · rintro ⟨rfl, rfl, falls⟩
    exact ⟨0, rfl, rfl, rfl, falls⟩

/-- Where the second entry is not below the first, the first fall of the rest is the first fall. -/
theorem firstFallsAt_cons {o p : Nat} (h : o ≤ p) (rest : List Nat) (i a b : Nat) :
    FirstFallsAt (o :: p :: rest) (i + 2) a b ↔ FirstFallsAt (p :: rest) (i + 1) a b := by
  unfold FirstFallsAt
  rw [fallsAt_cons]
  refine and_congr_right fun _ => ⟨fun before j hj x y => ?_, fun before j hj x y => ?_⟩
  · cases j with
    | zero => exact not_fallsAt_zero _ x y
    | succ j => exact fun falls => before (j + 2) (by omega) x y ((fallsAt_cons o _ j x y).2 falls)
  · match j with
    | 0 => exact not_fallsAt_zero _ x y
    | 1 =>
      rw [fallsAt_one_iff]
      omega
    | j + 2 => exact fun falls => before (j + 1) (by omega) x y ((fallsAt_cons o _ j x y).1 falls)

/-- The search for a fall finds the first one; its index is counted from the second entry on. -/
theorem firstDecrease?_eq_some_iff {fault : OffsetFault} : ∀ {offsets : List Nat} {start : Nat},
    firstDecrease? start offsets = some fault ↔
      ∃ i a b, fault = .decreasing (start + i) a b ∧ FirstFallsAt offsets (i + 1) a b
  | [], start => by
    simp only [firstDecrease?, reduceCtorEq, false_iff]
    rintro ⟨i, a, b, -, ⟨j, -, h, -⟩, -⟩
    cases h
  | [o], start => by
    simp only [firstDecrease?, reduceCtorEq, false_iff]
    rintro ⟨i, a, b, -, ⟨j, -, -, h, -⟩, -⟩
    cases h
  | o :: p :: rest, start => by
    rw [firstDecrease?]
    split
    · rename_i falls
      have here : FirstFallsAt (o :: p :: rest) 1 o p := by
        refine ⟨(fallsAt_one_iff ..).2 ⟨rfl, rfl, falls⟩, fun i hi a b => ?_⟩
        obtain rfl : i = 0 := by omega
        exact not_fallsAt_zero _ a b
      constructor
      · rintro ⟨⟩
        exact ⟨0, o, p, rfl, here⟩
      · rintro ⟨i, a, b, rfl, h⟩
        -- a later fall is not the first one
        cases i with
        | succ i => exact absurd here.1 (h.2 1 (by omega) o p)
        | zero =>
          obtain ⟨rfl, rfl, -⟩ := (fallsAt_one_iff ..).1 h.1
          rfl
    · rename_i rises
      rw [firstDecrease?_eq_some_iff]
      constructor
      · rintro ⟨i, a, b, rfl, h⟩
        refine ⟨i + 1, a, b, ?_, (firstFallsAt_cons (by omega) rest i a b).2 h⟩
        congr 1
        omega
      · rintro ⟨i, a, b, rfl, h⟩
        cases i with
        | zero =>
          have := (fallsAt_one_iff ..).1 h.1
          omega
        | succ i =>
          refine ⟨i, a, b, ?_, (firstFallsAt_cons (by omega) rest i a b).1 h⟩
          congr 1
          omega

/-! ## Form feeds -/

/-- The pages behind the first start right behind the form feeds, in their order. -/
theorem getElem?_startsBehind_iff {o : Nat} : ∀ {text : List Char} {position k : Nat},
    (startsBehind position text)[k]? = some o ↔
      ∃ p, o = position + p + 1 ∧ text[p]? = some pageBreak ∧ (text.take p).count pageBreak = k
  | [], position, k => by simp [startsBehind]
  | c :: rest, position, k => by
    have behind (k : Nat) := @getElem?_startsBehind_iff o rest (position + 1) k
    rw [startsBehind]
    split
    · rename_i breaks
      obtain rfl : c = pageBreak := by simpa using breaks
      cases k with
      | zero =>
        rw [List.getElem?_cons_zero, Option.some_inj]
        constructor
        · rintro rfl
          exact ⟨0, rfl, rfl, rfl⟩
        · rintro ⟨p, rfl, -, none⟩
          -- a form feed further on has the one in front before it
          cases p with
          | zero => rfl
          | succ p => simp at none
      | succ k =>
        rw [List.getElem?_cons_succ, behind]
        constructor
        · rintro ⟨p, rfl, hp, count⟩
          exact ⟨p + 1, by omega, hp, by simp [count]⟩
        · rintro ⟨p, rfl, hp, count⟩
          cases p with
          | zero => simp at count
          | succ p => exact ⟨p, by omega, hp, by simpa using count⟩
    · rename_i other
      rw [behind]
      constructor
      · rintro ⟨p, rfl, hp, count⟩
        exact ⟨p + 1, by omega, hp, by simpa [List.count_cons, other] using count⟩
      · rintro ⟨p, rfl, hp, count⟩
        cases p with
        | zero =>
          rw [List.getElem?_cons_zero, Option.some_inj] at hp
          simp [hp] at other
        | succ p => exact ⟨p, by omega, hp, by simpa [List.count_cons, other] using count⟩

/-! ## What the check answers -/

/-- The check looks at the first entry, then for a fall, then at the last entry. -/
theorem fault?_eq_some_iff {textLength : Nat} {fault : OffsetFault} :
    fault? offsets textLength = some fault ↔
      (∃ first, offsets.head? = some first ∧ first ≠ 0 ∧ fault = .notZeroBased first) ∨
      (∀ first, offsets.head? = some first → first = 0) ∧
        ((∃ i a b, fault = .decreasing (1 + i) a b ∧ FirstFallsAt offsets (i + 1) a b) ∨
          NeverFalls offsets ∧
            ∃ last, offsets.getLast? = some last ∧ textLength + 1 < last ∧ fault = .pastEnd last textLength) := by
  unfold fault?
  rw [neverFalls_iff_pairwise, ← firstDecrease?_eq_none_iff 1, ← firstDecrease?_eq_some_iff]
  simp only [Option.orElse_eq_orElse, Option.orElse_eq_or, Option.or_eq_some_iff, Option.map_eq_some_iff,
    Option.map_eq_none_iff, Option.filter_eq_some_iff, Option.filter_eq_none_iff, decide_eq_true_eq, not_not, and_assoc,
    eq_comm (a := fault)]

/-- A table that falls, or whose last entry is past something, has a first entry. -/
theorem head?_eq_zero_of_forall {o i : Nat} (h : offsets[i]? = some o)
    (zero : ∀ first, offsets.head? = some first → first = 0) : offsets.head? = some 0 := by
  cases offsets with
  | nil => cases h
  | cons first rest => rw [List.head?_cons, zero first rfl]

theorem fault?_eq_decreasing_iff {textLength index previous current : Nat} :
    fault? offsets textLength = some (.decreasing index previous current) ↔
      offsets.head? = some 0 ∧ FirstFallsAt offsets index previous current := by
  rw [fault?_eq_some_iff]
  constructor
  · rintro (⟨_, -, -, ⟨⟩⟩ | ⟨zero, ⟨i, _, _, same, falls⟩ | ⟨-, _, -, -, ⟨⟩⟩⟩)
    cases same
    rw [Nat.add_comm 1 i]
    obtain ⟨_, -, entry, -⟩ := falls.1
    exact ⟨head?_eq_zero_of_forall entry zero, falls⟩
  · rintro ⟨zero, falls⟩
    refine .inr ⟨fun first h => ?_, .inl ?_⟩
    · rw [zero] at h
      cases h
      rfl
    · obtain ⟨i, rfl, -⟩ := falls.1
      exact ⟨i, previous, current, by rw [Nat.add_comm], falls⟩

theorem fault?_eq_pastEnd_iff {textLength last length : Nat} :
    fault? offsets textLength = some (.pastEnd last length) ↔
      length = textLength ∧ offsets.head? = some 0 ∧ NeverFalls offsets ∧ offsets.getLast? = some last ∧
        textLength + 1 < last := by
  rw [fault?_eq_some_iff]
  constructor
  · rintro (⟨_, -, -, ⟨⟩⟩ | ⟨zero, ⟨i, _, _, ⟨⟩, -⟩ | ⟨rises, _, hlast, past, ⟨⟩⟩⟩)
    rw [List.getLast?_eq_getElem?] at hlast
    refine ⟨rfl, head?_eq_zero_of_forall hlast zero, rises, ?_, past⟩
    rwa [List.getLast?_eq_getElem?]
  · rintro ⟨rfl, zero, rises, hlast, past⟩
    refine .inr ⟨fun first h => ?_, .inr ⟨rises, last, hlast, past, rfl⟩⟩
    rw [zero] at h
    cases h
    rfl

/--
The check passes a table exactly if it has no entries, or if it starts with 0, never falls and ends at most one past
the text. Otherwise it names the first fault: the first entry if that is not 0, else the first entry that is below the
one before it together with both, else the last entry, which is past the text. A derived table has one entry for
each part between form feeds: 0, and behind it the place right behind each form feed, in their order; and it passes.
-/
theorem check_names_first_fault (offsets : List Nat) (textLength : Nat) :
    (fault? offsets textLength = none ↔
      offsets = [] ∨ offsets.head? = some 0 ∧ NeverFalls offsets ∧
        ∀ last, offsets.getLast? = some last → last ≤ textLength + 1) ∧
    (∀ first, fault? offsets textLength = some (.notZeroBased first) ↔ offsets.head? = some first ∧ first ≠ 0) ∧
    (∀ index previous current, fault? offsets textLength = some (.decreasing index previous current) ↔
      offsets.head? = some 0 ∧ FirstFallsAt offsets index previous current) ∧
    (∀ last length, fault? offsets textLength = some (.pastEnd last length) ↔
      length = textLength ∧ offsets.head? = some 0 ∧ NeverFalls offsets ∧ offsets.getLast? = some last ∧
        textLength + 1 < last) ∧
    ∀ text : List Char,
      (deriveOffsets text).length = (Text.pieces (· == pageBreak) text).length ∧ (deriveOffsets text)[0]? = some 0 ∧
      (∀ k start, (deriveOffsets text)[k + 1]? = some start ↔
        ∃ p, start = p + 1 ∧ text[p]? = some pageBreak ∧ (text.take p).count pageBreak = k) ∧
      fault? (deriveOffsets text) text.length = none := by
  refine ⟨?_, fun first => ?_, fun _ _ _ => fault?_eq_decreasing_iff, fun _ _ => fault?_eq_pastEnd_iff, fun text => ?_⟩
  · rw [fault?_eq_none_iff, neverFalls_iff_pairwise]
    rfl
  · rw [fault?_eq_some_iff]
    constructor
    · rintro (⟨_, hfirst, ne, ⟨⟩⟩ | ⟨-, ⟨_, _, _, ⟨⟩, -⟩ | ⟨-, _, -, -, ⟨⟩⟩⟩)
      exact ⟨hfirst, ne⟩
    · rintro ⟨hfirst, ne⟩
      exact .inl ⟨first, hfirst, ne, rfl⟩
  · refine ⟨length_startsFrom _ 0, ?_, fun k start => ?_, fault?_deriveOffsets text⟩
    · rw [deriveOffsets_eq_cons]
      rfl
    · rw [deriveOffsets_eq_cons, List.getElem?_cons_succ, getElem?_startsBehind_iff]
      simp only [Nat.zero_add]

/-- The first fall counts, and no fault further on. -/
example : fault? [0, 5, 3, 9, 1] 4 = some (.decreasing 2 5 3) := by decide

/-- A form feed at the end starts one page more, one past the text. -/
example : deriveOffsets ['\u00e9', pageBreak, pageBreak, 'x', pageBreak] = [0, 2, 3, 5] := by decide

end Concordance.Page
