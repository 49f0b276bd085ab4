/-
Page tables as they are stored. A table is written as JSON text, and a table of numbers of 64 bits is read
back from its text as it was.
-/
import Concordance.Index.Row
import Concordance.Proofs.Json.RoundTrip
import Concordance.Proofs.Text.Pieces

namespace Concordance

open Text

namespace Json

/-! ## Arrays of numbers -/

/-- Numbers with commas between them are the items of an array. -/
theorem items?_decimals (depth : Nat) : ∀ {numbers : List Nat} {fuel : Nat}, numbers ≠ [] →
    (∀ n ∈ numbers, n < UInt64.size) → numbers.length < fuel →
      items? fuel depth (joinWith [','] (numbers.map decimal) ++ [']']) =
        some (numbers.map fun (n : Nat) => .integer n, [])
  | [n], fuel + 2, _, hn, _ => by
    rw [List.map_singleton, joinWith_singleton]
    exact items?_last (value?_decimal (hn n List.mem_cons_self) (endsNumber_bracket []) fuel depth) rfl
  | n :: m :: numbers, fuel + 2, _, hn, hfuel => by
    have later := items?_decimals depth (List.cons_ne_nil m numbers) (fun k hk => hn k (List.mem_cons_of_mem _ hk))
      (Nat.lt_of_succ_lt_succ hfuel)
    rw [List.map_cons, joinWith_cons _ _ (by simp), List.append_assoc, List.append_assoc, List.singleton_append]
    exact items?_cons (value?_decimal (hn n List.mem_cons_self) (endsNumber_comma _) fuel depth) rfl later

/-! ## Tables -/

theorem mapM_toNatural_integers {bound : Nat} (expected : String) {numbers : List Nat} (h : ∀ n ∈ numbers, n < bound) :
    (numbers.map fun (n : Nat) => .integer n).mapM (toNatural bound expected) = .ok numbers := by
  induction numbers with
  | nil => rfl
  | cons n numbers ih =>
    rw [List.map_cons, List.mapM_cons, toNatural_integer (h n List.mem_cons_self),
      ih fun m hm => h m (List.mem_cons_of_mem _ hm)]
    rfl

/-- Offsets of 64 bits are taken as they are. -/
theorem toOffsets_integers {offsets : List Nat} (h : ∀ o ∈ offsets, o < UInt64.size) :
    toOffsets (.array (offsets.map fun (o : Nat) => .integer o)) = .ok offsets :=
  mapM_toNatural_integers "usize" h

end Json

namespace Index

theorem length_le_joinWith : ∀ offsets : List Nat, offsets.length ≤ (joinWith [','] (offsets.map decimal)).length
  | [] => Nat.zero_le _
  | [o] => List.length_pos_iff.2 (decimal_ne_nil o)
  | o :: p :: offsets => by
    have ih := length_le_joinWith (p :: offsets)
    rw [List.map_cons, joinWith_cons _ _ (by simp), List.length_cons, List.length_append, List.length_append,
      List.length_singleton]
    omega

/-- A page table is read back as it was stored. -/
theorem readOffsets?_offsetsText {offsets : List Nat} (hne : offsets ≠ []) (h : ∀ o ∈ offsets, o < UInt64.size) :
    readOffsets? (offsetsText offsets) = some offsets := by
  have chars : (offsetsText offsets).toList = '[' :: (joinWith [','] (offsets.map decimal) ++ [']']) := by
    rw [offsetsText, String.toList_ofList]
    rfl
  have size : offsets.length < 2 * (offsetsText offsets).toList.length + 1 := by
    have := length_le_joinWith offsets
    rw [chars, List.length_cons, List.length_append]
    omega
  have parsed : Json.parse? (offsetsText offsets) = some (.array (offsets.map fun (o : Nat) => .integer o)) := by
    have value := Json.value?_of_items? (Json.items?_decimals 126 hne h size)
    rw [← chars] at value
    unfold Json.parse?
    simp only [Json.maxDepth, value, Option.bind_eq_bind, Option.bind_some]
    rfl
  rw [readOffsets?, parsed, Option.bind_eq_bind, Option.bind_some, Json.toOffsets_integers h]
  rfl

/-- Of a document's table a row gives back all but one without entries. -/
theorem offsets?_ofDocument {d : Document}
    (h : ∀ offsets, d.pageOffsets = some offsets → ∀ o ∈ offsets, o < UInt64.size) :
    (Row.ofDocument d).offsets? = d.pageOffsets.filter (!·.isEmpty) := by
  show ((d.pageOffsets.filter (!·.isEmpty)).map offsetsText).bind readOffsets? = _
  cases hd : d.pageOffsets with
  | none => rfl
  | some offsets =>
    cases offsets with
    | nil => rfl
    | cons o rest => exact readOffsets?_offsetsText (List.cons_ne_nil o rest) (h _ hd)

end Index

end Concordance
