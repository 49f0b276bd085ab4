/-
Taking texts apart by bytes. Every character takes some byte, so what a text takes in UTF-8 says where it
ends in a longer text.
-/
import Concordance.Scan.Cursor
import Mathlib.Tactic

namespace Concordance.Scan

@[simp] theorem byteLength_nil : byteLength [] = 0 := rfl

@[simp] theorem byteLength_cons (c : Char) (s : List Char) : byteLength (c :: s) = c.utf8Size + byteLength s := rfl

@[simp] theorem byteLength_append : ∀ s t : List Char, byteLength (s ++ t) = byteLength s + byteLength t
  | [], t => (Nat.zero_add _).symm
  | c :: s, t => by
    rw [List.cons_append, byteLength_cons, byteLength_append s t, byteLength_cons, Nat.add_assoc]

theorem exists_succ_byteLength_cons (c : Char) (s : List Char) :
    ∃ n, byteLength (c :: s) = n + 1 ∧ n + 1 - c.utf8Size = byteLength s := by
  have size := c.utf8Size_pos
  rw [byteLength_cons]
  exact ⟨c.utf8Size + byteLength s - 1, by omega, by omega⟩

theorem dropBytes_append (t : List Char) : ∀ s : List Char, dropBytes (byteLength s) (s ++ t) = t
  | [] => by rw [byteLength_nil, List.nil_append, dropBytes]
  | c :: s => by
    obtain ⟨n, hn, hs⟩ := exists_succ_byteLength_cons c s
    rw [hn, List.cons_append, dropBytes, hs, dropBytes_append t s]

theorem takeBytes_append (t : List Char) : ∀ s : List Char, takeBytes (byteLength s) (s ++ t) = s
  | [] => by rw [byteLength_nil, List.nil_append, takeBytes]
  | c :: s => by
    obtain ⟨n, hn, hs⟩ := exists_succ_byteLength_cons c s
    rw [hn, List.cons_append, takeBytes, hs, takeBytes_append t s]

/-- The bytes that a text takes are those of the string of its characters. -/
theorem utf8ByteSize_ofList : ∀ s : List Char, (String.ofList s).utf8ByteSize = byteLength s
  | [] => rfl
  | c :: s => by
    rw [← List.singleton_append, String.ofList_append, String.utf8ByteSize_append, utf8ByteSize_ofList s,
      ← String.singleton_eq_ofList, String.utf8ByteSize_singleton, List.singleton_append, byteLength_cons]

/-- A position of a string lies behind the bytes of the string up to there. -/
theorem byteIdx_offset {text : String} (p : text.Pos) :
    p.offset.byteIdx = byteLength (text.sliceTo p).copy.toList := by
  rw [p.splits.offset_eq_rawEndPos, String.byteIdx_rawEndPos, ← utf8ByteSize_ofList, String.ofList_toList]

/-- A position of a string cuts its characters in two. -/
theorem toList_eq_append {text : String} (p : text.Pos) :
    text.toList = (text.sliceTo p).copy.toList ++ (text.sliceFrom p).copy.toList := by
  rw [← String.toList_append, ← p.splits.eq_append]

/-- The text of a span is what stands between the texts that it names. -/
theorem textIn_append (s u t : List Char) :
    Span.textIn ⟨byteLength s, byteLength s + byteLength u⟩ (s ++ (u ++ t)) = u := by
  rw [Span.textIn, dropBytes_append]
  dsimp only
  rw [Nat.add_sub_cancel_left, takeBytes_append]

end Concordance.Scan
