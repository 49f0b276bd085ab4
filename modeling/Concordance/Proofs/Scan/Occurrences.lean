/-
Where patterns occur, by the characters that stand there, and where spans stand in characters: the place that
a context gives is the one where its span starts, since the cursor that counts characters may be sent
anywhere, back as well as on.
-/
import Concordance.Proofs.Scan.Bytes
import Concordance.Proofs.Scan.Spans

namespace Concordance

open Text

namespace Scan

/-! ## Counting characters -/

theorem takeBytes_zero (s : List Char) : takeBytes 0 s = [] := by rw [takeBytes]

theorem takeBytes_cons {n : Nat} (hn : 0 < n) (c : Char) (s : List Char) :
    takeBytes n (c :: s) = c :: takeBytes (n - c.utf8Size) s := by
  obtain ⟨n, rfl⟩ := Nat.exists_eq_add_of_lt hn
  rw [Nat.zero_add, takeBytes]

theorem takeBytes_nil : ∀ n, takeBytes n [] = []
  | 0 => takeBytes_zero []
  | n + 1 => by rw [takeBytes]

theorem takeBytes_append_of_le (t : List Char) : ∀ {s : List Char} {n : Nat}, byteLength s ≤ n →
    takeBytes n (s ++ t) = s ++ takeBytes (n - byteLength s) t
  | [], n, _ => rfl
  | c :: s, n, h => by
    have size := c.utf8Size_pos
    rw [byteLength_cons] at h ⊢
    have ih : takeBytes (n - c.utf8Size) (s ++ t) = _ := takeBytes_append_of_le t (by omega)
    rw [List.cons_append, takeBytes_cons (by omega), ih, Nat.sub_sub, List.cons_append]

namespace Cursor

/-- Is a cursor at a place in a text, and has it counted what lies before? -/
def IsIn (k : Cursor) (text : List Char) : Prop :=
  k.text = text ∧ ∃ before, text = before ++ k.rest ∧ k.bytes = byteLength before ∧ k.chars = before.length

theorem isIn_start (text : List Char) : (start text).IsIn text := ⟨rfl, [], rfl, rfl, rfl⟩

theorem advance_spec (byte : Nat) : ∀ rest before : List Char,
    (advance byte (before ++ rest) (byteLength before) before.length rest).IsIn (before ++ rest) ∧
      (advance byte (before ++ rest) (byteLength before) before.length rest).chars =
        before.length + (takeBytes (byte - byteLength before) rest).length
  | [], before => by
    rw [advance, takeBytes_nil]
    exact ⟨⟨rfl, before, rfl, rfl, rfl⟩, rfl⟩
  | c :: rest, before => by
    rw [advance]
    split
    · rename_i reached
      rw [Nat.sub_eq_zero_of_le reached, takeBytes_zero]
      exact ⟨⟨rfl, before, rfl, rfl, rfl⟩, rfl⟩
    · rename_i short
      have ih := advance_spec byte rest (before ++ [c])
      have bytes : byteLength (before ++ [c]) = byteLength before + c.utf8Size := by simp
      rw [List.append_assoc, List.singleton_append, List.length_append, List.length_singleton, bytes] at ih
      refine ⟨ih.1, ih.2.trans ?_⟩
      rw [takeBytes_cons (by omega), List.length_cons, Nat.sub_sub]
      omega

/-- Wherever it is sent, on or back, a cursor counts the characters before a byte. -/
theorem moveTo_spec {k : Cursor} {text : List Char} (hk : k.IsIn text) (byte : Nat) :
    (k.moveTo byte).IsIn text ∧ (k.moveTo byte).chars = (takeBytes byte text).length := by
  obtain ⟨htext, before, hrest, hbytes, hchars⟩ := hk
  unfold moveTo
  split
  · rw [htext]
    have moved := advance_spec byte text []
    simp only [List.nil_append, byteLength_nil, List.length_nil, Nat.sub_zero, Nat.zero_add] at moved
    exact moved
  · rename_i onwards
    rw [htext, hbytes, hchars, hrest]
    refine ⟨(advance_spec ..).1, (advance_spec ..).2.trans ?_⟩
    rw [takeBytes_append_of_le _ (by omega), List.length_append]

theorem charOffsets_eq_map {text : List Char} : ∀ {k : Cursor}, k.IsIn text → ∀ bytes : List Nat,
    k.charOffsets bytes = bytes.map fun byte => (takeBytes byte text).length
  | _, _, [] => rfl
  | k, hk, byte :: rest => by
    have moved := moveTo_spec hk byte
    rw [charOffsets, charOffsets_eq_map moved.1 rest, moved.2, List.map_cons]

/-- The bytes before a position of a string are those of the string up to there. -/
theorem takeBytes_offset {text : String} (p : text.Pos) :
    takeBytes p.offset.byteIdx text.toList = (text.sliceTo p).copy.toList := by
  rw [byteIdx_offset, toList_eq_append p, takeBytes_append]

/--
A cursor that is sent to any positions of a string, each between two of its characters or at an end, in any order
and as often as one likes, tells each time how many characters lie before. So does one that is sent there alone.
-/
theorem charOffsets_positions (text : String) (positions : List text.Pos) :
    let bytes := positions.map (·.offset.byteIdx)
    (start text.toList).charOffsets bytes = positions.map (fun p => (text.sliceTo p).copy.length) ∧
      (start text.toList).charOffsets bytes = bytes.map fun byte => ((start text.toList).moveTo byte).chars := by
  intro bytes
  have counted := charOffsets_eq_map (isIn_start text.toList) bytes
  constructor
  · rw [counted, List.map_map]
    refine List.map_congr_left fun p _ => ?_
    rw [Function.comp_apply, takeBytes_offset, String.length_toList]
  · rw [counted]
    exact List.map_congr_left fun byte _ => (moveTo_spec (isIn_start text.toList) byte).2.symm

end Cursor

/-! ## Spans between characters -/

/-- The span of so many characters from a place on. -/
def spanAt (text : List Char) (place length : Nat) : Span :=
  ⟨byteLength (text.take place), byteLength (text.take (place + length))⟩

variable {text : List Char}

theorem textIn_spanAt (place length : Nat) :
    (spanAt text place length).textIn text = (text.drop place).take length := by
  have cut : text = text.take place ++ ((text.drop place).take length ++ text.drop (place + length)) := by
    rw [← List.drop_drop, List.take_append_drop, List.take_append_drop]
  have between := textIn_append (text.take place) ((text.drop place).take length) (text.drop (place + length))
  rw [← cut] at between
  rw [spanAt, List.take_add, byteLength_append, between]

theorem takeBytes_take (place : Nat) : takeBytes (byteLength (text.take place)) text = text.take place := by
  have cut := takeBytes_append (text.drop place) (text.take place)
  rwa [List.take_append_drop] at cut

theorem dropBytes_take (place : Nat) : dropBytes (byteLength (text.take place)) text = text.drop place := by
  have cut := dropBytes_append (text.drop place) (text.take place)
  rwa [List.take_append_drop] at cut

theorem byteLength_take_mono {a b : Nat} (h : a ≤ b) : byteLength (text.take a) ≤ byteLength (text.take b) := by
  obtain ⟨n, rfl⟩ := Nat.exists_eq_add_of_le h
  rw [List.take_add, byteLength_append]
  exact Nat.le_add_right _ _

theorem byteLength_take_lt {a b : Nat} (hab : a < b) (hb : b ≤ text.length) :
    byteLength (text.take a) < byteLength (text.take b) := by
  have next : byteLength (text.take (a + 1)) = byteLength (text.take a) + text[a].utf8Size := by
    rw [List.take_succ_eq_append_getElem (by omega), byteLength_append]
    simp
  have size := text[a].utf8Size_pos
  have rest : byteLength (text.take (a + 1)) ≤ byteLength (text.take b) := byteLength_take_mono (by omega)
  omega

theorem byteLength_take_min (a b : Nat) :
    byteLength (text.take (min a b)) = min (byteLength (text.take a)) (byteLength (text.take b)) :=
  Monotone.map_min fun _ _ => byteLength_take_mono

theorem byteLength_take_max (a b : Nat) :
    byteLength (text.take (max a b)) = max (byteLength (text.take a)) (byteLength (text.take b)) :=
  Monotone.map_max fun _ _ => byteLength_take_mono

/-! ## Occurrences -/

/-- Is there a word boundary at a place in a text? -/
def IsBoundaryIn (text : List Char) (place : Nat) : Prop :=
  isBoundary (text.take place).getLast? (text.drop place).head? = true

namespace Pattern

/--
Does a pattern occur at a place in a text: do its letters stand there, in the form in which letters are
compared, between word boundaries if it is to be a whole word?
-/
structure OccursIn (p : Pattern) (text : List Char) (place : Nat) : Prop where
  inside : place + p.letters.length ≤ text.length
  letters : ((text.drop place).take p.letters.length).map p.form = p.letters.map p.form
  bounded : p.wholeWord = true → IsBoundaryIn text place ∧ IsBoundaryIn text (place + p.letters.length)

variable {p : Pattern}

/-- The character in front of the end of a run, which lies in front of the run if the run is empty. -/
theorem getLast?_take_add {place length : Nat} (h : place + length ≤ text.length) :
    (text.take (place + length)).getLast? =
      if length = 0 then (text.take place).getLast? else (text.drop place)[length - 1]? := by
  split
  · rename_i none
    rw [none, Nat.add_zero]
  · rename_i some
    rw [List.getLast?_eq_getElem?, List.length_take, Nat.min_eq_left h, List.getElem?_take_of_lt (by omega),
      List.getElem?_drop]
    congr 1
    omega

theorem occursIn_of_occursAt {before rest : List Char} (h : p.occursAt before.getLast? rest = true) :
    p.OccursIn (before ++ rest) before.length := by
  have here : (before ++ rest).take before.length = before := by simp
  have behind : (before ++ rest).drop before.length = rest := by simp
  rw [occursAt, Bool.and_eq_true, startsWith_iff] at h
  obtain ⟨starts, bounded⟩ := h
  have letters : (rest.take p.letters.length).map p.form = p.letters.map p.form := by
    have taken := List.prefix_iff_eq_take.1 starts
    rw [List.length_map, ← List.map_take] at taken
    exact taken.symm
  have inside : before.length + p.letters.length ≤ (before ++ rest).length := by
    have := starts.length_le
    rw [List.length_map, List.length_map] at this
    rw [List.length_append]
    omega
  refine ⟨inside, by rwa [behind], fun whole => ?_⟩
  rw [whole, Bool.not_true, Bool.false_or, betweenBoundaries, Bool.and_eq_true] at bounded
  unfold IsBoundaryIn
  rw [getLast?_take_add inside, ← List.drop_drop, here, behind]
  exact bounded

theorem occursAt_of_occursIn {before rest : List Char} (h : p.OccursIn (before ++ rest) before.length) :
    p.occursAt before.getLast? rest = true := by
  have here : (before ++ rest).take before.length = before := by simp
  have behind : (before ++ rest).drop before.length = rest := by simp
  rw [occursAt, Bool.and_eq_true, startsWith_iff]
  constructor
  · have letters := h.letters
    rw [behind] at letters
    rw [← letters]
    exact (List.take_prefix _ _).map _
  · cases whole : p.wholeWord with
    | false => rfl
    | true =>
      have bounded := h.bounded whole
      unfold IsBoundaryIn at bounded
      rw [getLast?_take_add h.inside, ← List.drop_drop, here, behind] at bounded
      rw [Bool.not_true, Bool.false_or, betweenBoundaries, Bool.and_eq_true]
      exact bounded

end Pattern

end Scan

end Concordance
