/-
Integers and strings in JSON texts. Each is read back from its text in front of any rest that cannot be taken for
more of it, an integer of at most 64 bits as that integer and a string character by character.
-/
import Concordance.Json.Printer
import Concordance.Json.Parser
import Concordance.Proofs.Text.Decimal

namespace Concordance.Json

open Text

/-! ## Blanks -/

theorem skipSpace_of_not_isSpace {c : Char} (h : isSpace c = false) (s : List Char) : skipSpace (c :: s) = c :: s := by
  rw [skipSpace, List.dropWhile_cons_of_neg (by simp [h])]

theorem skipSpace_append_of_isSpace {blanks : List Char} (h : ∀ c ∈ blanks, isSpace c = true) (s : List Char) :
    skipSpace (blanks ++ s) = skipSpace s :=
  List.dropWhile_append_of_pos h

theorem isSpace_of_isDigit {c : Char} (h : c.isDigit = true) : isSpace c = false := by
  by_contra hc
  simp only [isSpace, Bool.not_eq_false, Bool.or_eq_true, decide_eq_true_eq] at hc
  rcases hc with ((rfl | rfl) | rfl) | rfl <;> cases h

/-! ## Integers -/

/-- Does a number end in front of this text? -/
def EndsNumber (rest : List Char) : Prop :=
  ∀ c ∈ rest.head?, c.isDigit = false ∧ c ≠ '.' ∧ c ≠ 'e' ∧ c ≠ 'E'

theorem endsNumber_comma (rest : List Char) : EndsNumber (',' :: rest) := by
  rintro c ⟨⟩
  decide

theorem endsNumber_bracket (rest : List Char) : EndsNumber (']' :: rest) := by
  rintro c ⟨⟩
  decide

theorem endsNumber_newLine (depth : Nat) (rest : List Char) : EndsNumber (newLine depth ++ rest) := by
  rintro c ⟨⟩
  decide

/-- The digits in front of what is no digit are taken. -/
theorem takeDigits_append {digits rest : List Char} (hd : ∀ c ∈ digits, c.isDigit = true)
    (hr : ∀ c ∈ rest.head?, c.isDigit = false) : takeDigits (digits ++ rest) = (digits, rest) := by
  rw [takeDigits, List.takeWhile_append_of_pos hd, List.dropWhile_append_of_pos hd]
  cases rest with
  | nil => simp
  | cons c rest =>
    have hc := hr c rfl
    rw [List.takeWhile_cons_of_neg (by simp [hc]), List.dropWhile_cons_of_neg (by simp [hc]), List.append_nil]

theorem EndsNumber.takeDigits {rest : List Char} (h : EndsNumber rest) (n : Nat) :
    Json.takeDigits (decimal n ++ rest) = (decimal n, rest) :=
  takeDigits_append (fun _ hc => isDigit_of_mem_decimal hc) fun c hc => (h c hc).1

theorem EndsNumber.fractionPart? {rest : List Char} (h : EndsNumber rest) :
    Json.fractionPart? rest = some ([], rest) := by
  unfold Json.fractionPart?
  split
  · exact absurd rfl (h '.' rfl).2.1
  · rfl

theorem EndsNumber.exponentPart? {rest : List Char} (h : EndsNumber rest) :
    Json.exponentPart? rest = some (none, rest) := by
  cases rest with
  | nil => rfl
  | cons c rest =>
    obtain ⟨-, -, small, large⟩ := h c rfl
    simp [Json.exponentPart?, small, large]

/-- No zero stands in front of the other digits of a number. -/
theorem whole_decimal (n : Nat) :
    ((decimal n).isEmpty || ((decimal n).length > 1 && (decimal n).head? = some '0')) = false := by
  rcases Nat.eq_zero_or_pos n with rfl | hn
  · decide +kernel
  · simp [decimal_ne_nil n, head?_decimal_ne hn]

theorem exists_decimal_eq_cons (n : Nat) : ∃ d ds, decimal n = d :: ds ∧ d.isDigit = true := by
  obtain ⟨d, ds, hds⟩ := List.exists_cons_of_ne_nil (decimal_ne_nil n)
  exact ⟨d, ds, hds, isDigit_of_mem_decimal (hds ▸ List.mem_cons_self)⟩

theorem numeral?_decimal (n : Nat) {rest : List Char} (h : EndsNumber rest) :
    numeral? (decimal n ++ rest) = some (⟨false, decimal n, [], none⟩, rest) := by
  obtain ⟨d, ds, hds, digit⟩ := exists_decimal_eq_cons n
  unfold numeral?
  split
  rename_i negative s heq
  -- a digit in front is no sign
  have unsigned : (negative, s) = (false, decimal n ++ rest) := by
    rw [← heq]
    split
    · rename_i hminus
      rw [hds] at hminus
      rw [(List.cons.inj hminus).1] at digit
      cases digit
    · rfl
  cases unsigned
  simp only [h.takeDigits, whole_decimal, h.fractionPart?, h.exponentPart?, Bool.false_eq_true, if_false,
    Option.bind_eq_bind, Option.bind_some]

theorem numeral?_minus_decimal (n : Nat) {rest : List Char} (h : EndsNumber rest) :
    numeral? ('-' :: (decimal n ++ rest)) = some (⟨true, decimal n, [], none⟩, rest) := by
  simp only [numeral?, h.takeDigits, whole_decimal, h.fractionPart?, h.exponentPart?, Bool.false_eq_true, if_false,
    Option.bind_eq_bind, Option.bind_some]

/-- Is a number a signed or an unsigned one of 64 bits? Others are not read as integers. -/
def IsInteger64 (n : Int) : Prop := -2 ^ 63 ≤ n ∧ n < 2 ^ 64

theorem isInteger64_of_lt {n : Nat} (h : n < UInt64.size) : IsInteger64 n := by
  have size : UInt64.size = 2 ^ 64 := rfl
  constructor <;> omega

theorem toList_integerText (n : Int) :
    (integerText n).toList = if n < 0 then '-' :: decimal n.natAbs else decimal n.natAbs := by
  unfold integerText decimalText
  split
  · simp
  · rw [String.toList_ofList]

/-- A text that starts with a digit or a sign holds a number. -/
theorem value?_of_numeral? {c : Char} (hc : c.isDigit = true ∨ c = '-') {s rest : List Char} {n : Numeral}
    {value : Json} (hn : numeral? (c :: s) = some (n, rest)) (hv : n.value? = some value) (fuel depth : Nat) :
    value? (fuel + 1) depth (c :: s) = some (value, rest) := by
  have solid : isSpace c = false := by
    rcases hc with hc | rfl
    · exact isSpace_of_isDigit hc
    · decide
  have other : ∀ x : Char, x.isDigit = false → x ≠ '-' → ∀ t, c :: s ≠ x :: t := by
    rintro x hx hm t heq
    cases heq
    rcases hc with hc | rfl
    · rw [hc] at hx
      cases hx
    · exact hm rfl
  rw [value?, skipSpace_of_not_isSpace solid]
  split <;> rename_i heq
  · exact absurd heq (other '[' (by decide) (by decide) _)
  · exact absurd heq (other '\x7b' (by decide) (by decide) _)
  · exact absurd heq (other '"' (by decide) (by decide) _)
  · exact absurd heq (other 't' (by decide) (by decide) _)
  · exact absurd heq (other 'f' (by decide) (by decide) _)
  · exact absurd heq (other 'n' (by decide) (by decide) _)
  · simp only [hn, hv, Option.bind_eq_bind, Option.bind_some]

/-- An integer is read back from its text. -/
theorem value?_integerText {n : Int} (hn : IsInteger64 n) {rest : List Char} (h : EndsNumber rest)
    (fuel depth : Nat) : value? (fuel + 1) depth ((integerText n).toList ++ rest) = some (.integer n, rest) := by
  have size : UInt64.size = 2 ^ 64 := rfl
  obtain ⟨low, high⟩ := hn
  rw [toList_integerText]
  split
  · rename_i negative
    have positive : 0 < n.natAbs := by omega
    have bound : 2 * n.natAbs ≤ UInt64.size := by omega
    have sign : -|n| = n := by rw [abs_of_neg negative, neg_neg]
    have value : Numeral.value? ⟨true, decimal n.natAbs, [], none⟩ = some (.integer n) := by
      simp [Numeral.value?, decimalValue_decimal, positive, bound, sign]
    exact value?_of_numeral? (.inr rfl) (numeral?_minus_decimal _ h) value fuel depth
  · have bound : n.natAbs < UInt64.size := by omega
    have sign : (n.natAbs : Int) = n := by omega
    have value : Numeral.value? ⟨false, decimal n.natAbs, [], none⟩ = some (.integer n) := by
      simp [Numeral.value?, decimalValue_decimal, bound, sign]
    obtain ⟨d, ds, hds, digit⟩ := exists_decimal_eq_cons n.natAbs
    have read := numeral?_decimal n.natAbs h
    rw [hds] at read value ⊢
    exact value?_of_numeral? (.inl digit) read value fuel depth

theorem value?_decimal {n : Nat} (hn : n < UInt64.size) {rest : List Char} (h : EndsNumber rest) (fuel depth : Nat) :
    value? (fuel + 1) depth (decimal n ++ rest) = some (.integer n, rest) := by
  have read := value?_integerText (isInteger64_of_lt hn) h fuel depth
  rw [toList_integerText, if_neg (Int.not_lt.2 (Int.natCast_nonneg n)), Int.natAbs_natCast] at read
  exact read

theorem toNatural_integer {bound n : Nat} (h : n < bound) (expected : String) :
    toNatural bound expected (.integer n) = .ok n := by
  simp [toNatural, h]

theorem toUInt32_integer (n : UInt32) : toUInt32 (.integer n.toNat) = .ok n := by
  rw [toUInt32, toNatural_integer n.toNat_lt_size, Except.map, UInt32.ofNat_toNat]

/-! ## Strings -/

theorem exists_hexadecimal_eq {n : Nat} (h : n < 16) : ∃ a, hexadecimal n = [a] ∧ hexValue? a = some n := by
  rw [hexadecimal, if_pos h]
  exact ⟨_, rfl, by interval_cases n <;> decide⟩

theorem hexadecimal_of_le {n : Nat} (h : 16 ≤ n) : hexadecimal n = hexadecimal (n / 16) ++ hexadecimal (n % 16) := by
  have last := hexadecimal.eq_1 (n % 16)
  rw [if_pos (Nat.mod_lt n (by decide))] at last
  rw [hexadecimal, if_neg (by omega), last]

/-- Two hexadecimal digits behind two zeros stand for a control character. -/
theorem stringChar?_control {a b : Char} {x y : Nat} (ha : hexValue? a = some x) (hb : hexValue? b = some y)
    (h : 16 * x + y < 32) (rest : List Char) :
    stringChar? ('\\' :: 'u' :: '0' :: '0' :: a :: b :: rest) = some (Char.ofNat (16 * x + y), rest) := by
  have zero : hexValue? '0' = some 0 := by decide
  have unit : hexUnit? ('0' :: '0' :: a :: b :: rest) = some (16 * x + y, rest) := by
    simp [hexUnit?, zero, ha, hb]
  have high : ¬ 0xD800 ≤ 16 * x + y := by omega
  have low : ¬ 0xDC00 ≤ 16 * x + y := by omega
  simp only [stringChar?, unicodeEscape?, unit, high, low, decide_false, Bool.false_and, Bool.false_eq_true, if_false,
    Option.bind_eq_bind, Option.bind_some]

theorem stringChar?_plain {c : Char} (quote : c ≠ '"') (backslash : c ≠ '\\') (h : 32 ≤ c.toNat)
    (rest : List Char) : stringChar? (c :: rest) = some (c, rest) := by
  unfold stringChar?
  split <;> rename_i heq <;> cases heq
  · exact absurd rfl backslash
  · exact absurd rfl backslash
  · simp [quote, backslash, h]

/-- A character is read back from how it is written in a string. -/
theorem stringChar?_escape (c : Char) (rest : List Char) : stringChar? (escape c ++ rest) = some (c, rest) := by
  unfold escape
  -- seven characters have a letter or themselves behind the backslash, other control characters two digits
  split
  · rfl
  · rfl
  · rfl
  · rfl
  · rfl
  · rfl
  · rfl
  · rename_i quote backslash _ _ _ _ _
    split
    · rename_i small
      obtain ⟨a, digits, value⟩ := exists_hexadecimal_eq small
      have read := stringChar?_control (a := '0') (x := 0) (by decide) value (by omega) rest
      rw [Nat.mul_zero, Nat.zero_add, Char.ofNat_toNat] at read
      rw [digits]
      exact read
    · rename_i large
      split
      · rename_i small
        obtain ⟨a, first, firstValue⟩ := exists_hexadecimal_eq (n := c.toNat / 16) (by omega)
        obtain ⟨b, last, lastValue⟩ := exists_hexadecimal_eq (n := c.toNat % 16) (by omega)
        have read := stringChar?_control firstValue lastValue (by omega) rest
        rw [Nat.div_add_mod, Char.ofNat_toNat] at read
        rw [hexadecimal_of_le (by omega), first, last]
        exact read
      · exact stringChar?_plain quote backslash (by omega) rest

theorem stringChar?_quote (s : List Char) : stringChar? ('"' :: s) = none := by
  simp [stringChar?]

theorem stringBody?_of_stringChar? {s rest : List Char} {c : Char} (h : stringChar? s = some (c, rest)) {fuel : Nat}
    {body after : List Char} (hb : stringBody? fuel rest = some (body, after)) :
    stringBody? (fuel + 1) s = some (c :: body, after) := by
  unfold stringBody?
  split
  · rename_i heq
    cases heq
  · rw [stringChar?_quote] at h
    cases h
  · rename_i count _
    cases count
    simp only [h, hb, Option.bind_eq_bind, Option.bind_some]

/-- A string is read back up to the quote behind it. -/
theorem stringBody?_flatMap_escape (rest : List Char) : ∀ {s : List Char} {fuel : Nat}, s.length < fuel →
    stringBody? fuel (s.flatMap escape ++ '"' :: rest) = some (s, rest)
  | [], fuel + 1, _ => by simp [stringBody?]
  | c :: s, fuel + 1, h => by
    have ih := stringBody?_flatMap_escape rest (Nat.lt_of_succ_lt_succ h)
    rw [List.flatMap_cons, List.append_assoc]
    exact stringBody?_of_stringChar? (stringChar?_escape c _) ih

theorem length_le_flatMap_escape (s : List Char) : s.length ≤ (s.flatMap escape).length := by
  induction s with
  | nil => exact Nat.zero_le _
  | cons c s ih =>
    have written : escape c ≠ [] := by
      intro h
      have read := stringChar?_escape c []
      rw [h] at read
      cases read
    have := List.length_pos_iff.2 written
    rw [List.flatMap_cons, List.length_append, List.length_cons]
    omega

/-- What is written as a string starts with a quote, and behind it the string is read back. -/
theorem exists_printString_append (s : String) (rest : List Char) :
    ∃ t, printString s ++ rest = '"' :: t ∧ stringBody? (t.length + 1) t = some (s.toList, rest) := by
  refine ⟨s.toList.flatMap escape ++ '"' :: rest, by simp [printString], stringBody?_flatMap_escape rest ?_⟩
  have := length_le_flatMap_escape s.toList
  rw [List.length_append]
  omega

theorem value?_printString (s : String) (rest : List Char) (fuel depth : Nat) :
    value? (fuel + 1) depth (printString s ++ rest) = some (.text s, rest) := by
  obtain ⟨t, opened, body⟩ := exists_printString_append s rest
  rw [opened, value?, skipSpace_of_not_isSpace (by decide)]
  simp only [body, Option.map_some, String.ofList_toList]

end Concordance.Json
