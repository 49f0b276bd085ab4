/-
How far words are apart in a scan: what stands between the spans of two words are the words between them, so
two spans are close together where the places of their words are.
-/
import Concordance.Proofs.Vocabulary.Places

namespace Concordance

open Text Scan

/-! ## The text between spans -/

namespace Scanner

variable {text : List Char}

theorem gap?_comm (a b : Span) : gap? text a b = gap? text b a := by
  unfold gap?
  rw [min_comm, max_comm]

theorem isClose_comm (n : Nat) (a b : Span) : isClose text n a b = isClose text n b a := by
  unfold isClose
  rw [gap?_comm]

/-- Spans with some text between them are as close together as that text has words. -/
theorem isClose_append {s u g v t : List Char} (hg : g ≠ []) (n : Nat) :
    isClose (s ++ (u ++ (g ++ (v ++ t)))) n ⟨byteLength s, byteLength s + byteLength u⟩
        ⟨byteLength (s ++ (u ++ g)), byteLength (s ++ (u ++ g)) + byteLength v⟩ = true ↔
      (words g).length ≤ n := by
  have wide : 0 < byteLength g := by
    obtain ⟨c, g, rfl⟩ := List.exists_cons_of_ne_nil hg
    have size := c.utf8Size_pos
    rw [byteLength_cons]
    omega
  have between : gap? (s ++ (u ++ (g ++ (v ++ t)))) ⟨byteLength s, byteLength s + byteLength u⟩
      ⟨byteLength (s ++ (u ++ g)), byteLength (s ++ (u ++ g)) + byteLength v⟩ = some g := by
    -- the span in front ends first and starts first
    have first : min (byteLength s + byteLength u) (byteLength (s ++ (u ++ g)) + byteLength v) =
        byteLength (s ++ u) := by
      simp only [byteLength_append]
      omega
    have last : max (byteLength s) (byteLength (s ++ (u ++ g))) = byteLength (s ++ u) + byteLength g := by
      simp only [byteLength_append]
      omega
    have inside := textIn_append (s ++ u) g (v ++ t)
    rw [List.append_assoc] at inside
    unfold gap?
    simp only [first, last]
    rw [if_pos (by omega), inside]
  rw [isClose, between, Option.any_some, decide_eq_true_eq]

end Scanner

open Scanner

/-! ## Places of words -/

/-- The span of a word behind other words. -/
def spanBehind (before : List (List Char)) (w : List Char) : Span :=
  ⟨byteLength (spaced before), byteLength (spaced before) + byteLength w⟩

theorem mem_wordSpans_zero {w : List Char} {vs : List (List Char)} {x : Span} :
    x ∈ wordSpans w 0 vs ↔ ∃ before after, vs = before ++ w :: after ∧ x = spanBehind before w := by
  rw [mem_wordSpans]
  simp only [Nat.zero_add, spanBehind]

theorem getElem?_eq_some_iff_append {α : Type} {l : List α} {i : Nat} {a : α} :
    l[i]? = some a ↔ ∃ before after, l = before ++ a :: after ∧ before.length = i := by
  constructor
  · intro h
    obtain ⟨hi, rfl⟩ := List.getElem?_eq_some_iff.1 h
    exact ⟨l.take i, l.drop (i + 1), by rw [List.cons_getElem_drop_succ, List.take_append_drop],
      List.length_take_of_le hi.le⟩
  · rintro ⟨before, after, rfl, rfl⟩
    rw [List.getElem?_append_right le_rfl, Nat.sub_self]
    rfl

namespace Vocabulary

variable {V : Vocabulary} {vs : List (List Char)} {a b : List Char}

/-- Between two words, each with a space behind it, stand the words between them. -/
theorem All.words_spaced (h : V.All vs) : Text.words (spaced ([] :: vs)) = vs := by
  have blanks : ∀ w ∈ ([] :: vs) ++ [[]], ∀ c ∈ w, Text.isBlank c = false := by
    intro w hw c hc
    rcases List.mem_append.1 hw with hw | hw
    · rcases List.mem_cons.1 hw with rfl | hw
      · cases hc
      · exact h.isBlank w hw c hc
    · rw [List.mem_singleton.1 hw] at hc
      cases hc
  have joined : spaced ([] :: vs) = joinWith [' '] (([] :: vs) ++ [[]]) := by
    rw [joinWith_append_right _ (List.cons_ne_nil _ _), joinWith_singleton, List.append_nil]
    rfl
  have kept : vs.filter (!·.isEmpty) = vs :=
    List.filter_eq_self.2 fun w hw => by simpa using h.ne_nil w hw
  rw [joined, Text.words, pieces_joinWith (by decide) (by simp) blanks, List.filter_append, List.filter_cons, kept]
  exact List.append_nil vs

/-- A word behind another is close to it if not too many words stand between them. -/
theorem isClose_behind {X Y Z : List (List Char)} (h : V.All Y) (n : Nat) :
    isClose (joinWith [' '] (X ++ a :: (Y ++ b :: Z))) n (spanBehind X a) (spanBehind (X ++ a :: Y) b) = true ↔
      Y.length ≤ n := by
  have text : joinWith [' '] (X ++ a :: (Y ++ b :: Z)) =
      spaced X ++ (a ++ (spaced ([] :: Y) ++ (b ++ Z.flatMap ([' '] ++ ·)))) := by
    have front := joinWith_append_right [' '] (List.cons_ne_nil b Z) (X ++ a :: Y)
    have back := joinWith_append_left [' '] Z (List.cons_ne_nil b [])
    rw [List.append_assoc, List.cons_append] at front
    rw [List.singleton_append] at back
    rw [front, back]
    simp [spaced]
  have behind : spaced (X ++ a :: Y) = spaced X ++ (a ++ spaced ([] :: Y)) := by simp [spaced]
  rw [text, spanBehind, spanBehind, behind, isClose_append (by simp [spaced]), h.words_spaced]

/-- Spans of different words are close together where their words are. -/
theorem isClose_spanBehind {X Y X' Y' : List (List Char)} (h : V.All vs) (hne : a ≠ b) (hX : vs = X ++ a :: Y)
    (hX' : vs = X' ++ b :: Y') (n : Nat) :
    isClose (joinWith [' '] vs) n (spanBehind X a) (spanBehind X' b) = true ↔
      X'.length ≤ X.length + 1 + n ∧ X.length ≤ X'.length + 1 + n := by
  have inside : ∀ {A B C : List (List Char)}, vs = A ++ (B ++ C) → V.All B :=
    fun he w hw => h w (by simp [he, hw])
  rcases List.append_eq_append_iff.1 (hX.symm.trans hX') with ⟨_ | ⟨u, Z⟩, rfl, hZ⟩ | ⟨_ | ⟨u, Z⟩, rfl, hZ⟩
  · exact absurd (List.cons.inj hZ).1 hne
  · -- the second word stands behind the first
    obtain ⟨rfl, -⟩ := List.cons.inj hZ
    have between : V.All Z := inside (A := X ++ [a]) (C := b :: Y') (by simp [hX'])
    rw [hX', List.append_assoc, List.cons_append, isClose_behind between]
    simp only [List.length_append, List.length_cons]
    omega
  · exact absurd (List.cons.inj hZ).1.symm hne
  · -- or the first behind the second
    obtain ⟨rfl, -⟩ := List.cons.inj hZ
    have between : V.All Z := inside (A := X' ++ [b]) (C := a :: Y) (by simp [hX])
    rw [hX, List.append_assoc, List.cons_append, isClose_comm, isClose_behind between]
    simp only [List.length_append, List.length_cons]
    omega

/-- A scan finds two different words close together exactly if there are places of them close together. -/
theorem All.exists_isClose_iff (h : V.All vs) (ha : a ∈ V.words) (hb : b ∈ V.words) (hne : a ≠ b) (n : Nat) :
    (∃ x ∈ (literal a).spans (joinWith [' '] vs), ∃ y ∈ (literal b).spans (joinWith [' '] vs),
        isClose (joinWith [' '] vs) n x y = true) ↔
      ∃ i j, vs[i]? = some a ∧ vs[j]? = some b ∧ j ≤ i + 1 + n ∧ i ≤ j + 1 + n := by
  have spansOf : ∀ {w}, w ∈ V.words → (literal w).spans (joinWith [' '] vs) = wordSpans w 0 vs :=
    fun hw => h.spansFrom_joinWith hw 0
  rw [spansOf ha, spansOf hb]
  constructor
  · rintro ⟨x, hx, y, hy, hc⟩
    obtain ⟨X, Y, hX, rfl⟩ := mem_wordSpans_zero.1 hx
    obtain ⟨X', Y', hX', rfl⟩ := mem_wordSpans_zero.1 hy
    exact ⟨X.length, X'.length, getElem?_eq_some_iff_append.2 ⟨X, Y, hX, rfl⟩,
      getElem?_eq_some_iff_append.2 ⟨X', Y', hX', rfl⟩, (isClose_spanBehind h hne hX hX' n).1 hc⟩
  · rintro ⟨i, j, hi, hj, hc⟩
    obtain ⟨X, Y, hX, rfl⟩ := getElem?_eq_some_iff_append.1 hi
    obtain ⟨X', Y', hX', rfl⟩ := getElem?_eq_some_iff_append.1 hj
    exact ⟨spanBehind X a, mem_wordSpans_zero.2 ⟨X, Y, hX, rfl⟩, spanBehind X' b,
      mem_wordSpans_zero.2 ⟨X', Y', hX', rfl⟩, (isClose_spanBehind h hne hX hX' n).2 hc⟩

end Vocabulary

end Concordance
