/-
The text around a span. The ends of what is shown are looked for byte by byte, from the span back to the front
and on to the end, and come to lie the same number of characters before and behind it; so a span between characters
is shown with exactly that many characters on each side, or with all that there are, and the sides where the text
goes on are marked.
-/
import Concordance.Proofs.Scan.Occurrences

namespace Concordance.Scan

variable {text : List Char}

/-! ## Steps by characters -/

theorem getElem?_charStarts : ∀ (s : List Char) (bytes i : Nat),
    (charStarts bytes s)[i]? = if i < s.length then some (bytes + byteLength (s.take i)) else none
  | [], _, _ => rfl
  | c :: s, bytes, 0 => by simp [charStarts]
  | c :: s, bytes, i + 1 => by
    rw [charStarts, List.getElem?_cons_succ, getElem?_charStarts s, List.length_cons, List.take_succ_cons,
      byteLength_cons, Nat.add_assoc]
    simp only [Nat.add_lt_add_iff_right]

theorem length_charStarts : ∀ (s : List Char) (bytes : Nat), (charStarts bytes s).length = s.length
  | [], _ => rfl
  | c :: s, bytes => by rw [charStarts, List.length_cons, length_charStarts s, List.length_cons]

/-- Steps back from a place between characters end as many characters before it, or at the start of the text. -/
theorem stepBack_take {place : Nat} (inside : place ≤ text.length) (count : Nat) :
    stepBack text (byteLength (text.take place)) count = byteLength (text.take (place - count)) := by
  have before : (text.take place).length = place := List.length_take_of_le inside
  -- the last of the characters gone back over is the one at `place - count`
  have last : ((charStarts 0 (text.take place)).reverse.take count).getLast? =
      (charStarts 0 (text.take place))[place - count]? := by
    rw [List.take_reverse, List.getLast?_reverse, length_charStarts, before, List.head?_drop]
  rw [stepBack, takeBytes_take, last, getElem?_charStarts, before]
  split
  · rw [Option.getD_some, Nat.zero_add, List.take_take, Nat.min_eq_left (by omega)]
  · -- no character is gone back over
    have stay : place - count = place := by omega
    rw [Option.getD_none, stay]

/-- Steps on from a place between characters end as many characters behind it, or at the end of the text. -/
theorem stepOn_take (place count : Nat) :
    stepOn text (byteLength (text.take place)) count = byteLength (text.take (place + count)) := by
  rw [stepOn, dropBytes_take, getElem?_charStarts, List.length_drop]
  split
  · rw [Option.getD_some, List.take_add, byteLength_append]
  · rw [Option.getD_none, List.take_of_length_le (by omega)]

/-! ## The window around a run -/

/-- What stands up to `radius` characters around a run, with `...` on the sides where the text goes on. -/
def window (text : List Char) (start stop radius : Nat) : List Char :=
  let ellipsis := ['.', '.', '.']
  (if radius < start then ellipsis else []) ++ (text.take (stop + radius)).drop (start - radius) ++
    (if stop + radius < text.length then ellipsis else [])

theorem byteLength_take_pos_iff {place : Nat} (inside : place ≤ text.length) :
    0 < byteLength (text.take place) ↔ 0 < place := by
  constructor
  · intro some
    by_contra none
    rw [Nat.eq_zero_of_not_pos none, List.take_zero] at some
    exact absurd some (lt_irrefl 0)
  · intro some
    exact (Nat.zero_le _).trans_lt (byteLength_take_lt some inside)

theorem byteLength_take_lt_iff {place : Nat} :
    byteLength (text.take place) < byteLength text ↔ place < text.length := by
  constructor
  · intro less
    by_contra long
    rw [List.take_of_length_le (Nat.not_lt.1 long)] at less
    exact absurd less (lt_irrefl _)
  · intro less
    have strict := byteLength_take_lt less le_rfl
    rwa [List.take_length] at strict

/-- Cut by bytes or by characters, the text around a run is the same. -/
theorem excerpt_eq_window {start stop : Nat} (h : start ≤ stop) (inside : stop ≤ text.length) (radius : Nat) :
    excerpt text ⟨byteLength (text.take start), byteLength (text.take stop)⟩ radius =
      window text start stop radius := by
  have order : start - radius ≤ stop + radius := by omega
  have shown : (spanAt text (start - radius) (stop + radius - (start - radius))).textIn text =
      (text.take (stop + radius)).drop (start - radius) := by
    rw [textIn_spanAt, List.drop_take]
  rw [spanAt, Nat.add_sub_cancel' order] at shown
  have front : 0 < byteLength (text.take (start - radius)) ↔ radius < start :=
    (byteLength_take_pos_iff (by omega)).trans Nat.sub_pos_iff_lt
  unfold excerpt window
  dsimp only
  rw [stepBack_take (h.trans inside), stepOn_take, shown]
  simp only [front, byteLength_take_lt_iff]

/-! ## Positions of a string -/

/-- The bytes before a position of a string are those of its first characters. -/
theorem byteIdx_offset_eq_take {s : String} (p : s.Pos) :
    p.offset.byteIdx = byteLength (s.toList.take (s.sliceTo p).copy.length) := by
  rw [byteIdx_offset, ← String.length_toList, toList_eq_append p, List.take_left]

theorem length_sliceTo_le {s : String} (p : s.Pos) : (s.sliceTo p).copy.length ≤ s.toList.length := by
  rw [← String.length_toList, toList_eq_append p, List.length_append]
  exact Nat.le_add_right _ _

theorem length_sliceTo_mono {s : String} {p q : s.Pos} (h : p ≤ q) :
    (s.sliceTo p).copy.length ≤ (s.sliceTo q).copy.length := by
  have bytes : p.offset.byteIdx ≤ q.offset.byteIdx := h
  rw [byteIdx_offset_eq_take, byteIdx_offset_eq_take] at bytes
  by_contra less
  exact absurd bytes (Nat.not_le.2 (byteLength_take_lt (Nat.not_le.1 less) (length_sliceTo_le p)))

/--
Between any two positions of a string, with `i` and `j` of its `n` characters before them, an excerpt shows the
characters from `i - radius`, or the first, up to `j + radius`, or the last. It starts with `...` exactly if more than
`radius` characters lie before the span, and ends with `...` exactly if more lie behind it.
-/
theorem excerpt_positions (text : String) {p q : text.Pos} (h : p ≤ q) (radius : Nat) :
    let i := (text.sliceTo p).copy.length
    let j := (text.sliceTo q).copy.length
    let n := text.length
    excerpt text.toList ⟨p.offset.byteIdx, q.offset.byteIdx⟩ radius =
      (if i > radius then ['.', '.', '.'] else []) ++
        text.toList.extract (i - radius) (min n (j + radius)) ++
          (if n - j > radius then ['.', '.', '.'] else []) := by
  intro i j n
  have length : text.toList.length = n := String.length_toList
  have inside : j ≤ text.toList.length := length_sliceTo_le q
  -- what is shown cannot reach over the end
  have last : text.toList.take (j + radius) = text.toList.take (min n (j + radius)) := by
    rw [List.take_eq_take_min, length, Nat.min_comm]
  have behind : j + radius < text.toList.length ↔ n - j > radius := by omega
  have cut : excerpt text.toList ⟨p.offset.byteIdx, q.offset.byteIdx⟩ radius = window text.toList i j radius := by
    rw [byteIdx_offset_eq_take p, byteIdx_offset_eq_take q]
    exact excerpt_eq_window (length_sliceTo_mono h) inside radius
  rw [cut, window, last, List.extract_eq_take_drop, ← List.drop_take]
  simp only [behind, gt_iff_lt]

/-- Two characters around a word between letters of two bytes. -/
theorem excerpt_positions_island :
    let text := "ééé island ééé"
    ∃ p q : text.Pos, p ≤ q ∧ (text.sliceTo p).copy = "ééé " ∧ (text.sliceTo q).copy = "ééé island" ∧
      excerpt text.toList ⟨p.offset.byteIdx, q.offset.byteIdx⟩ 2 = "...é island é...".toList := by
  intro text
  let p : text.Pos := text.pos ⟨7⟩ (by decide +kernel)
  let q : text.Pos := text.pos ⟨13⟩ (by decide +kernel)
  have h : p ≤ q := by decide +kernel
  refine ⟨p, q, h, by decide +kernel, by decide +kernel, ?_⟩
  exact (excerpt_positions text h 2).trans (by decide +kernel)

end Concordance.Scan
