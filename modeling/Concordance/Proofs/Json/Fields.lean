/-
What typed fields accept. Each reader of a value takes exactly the values that its type is written as: numbers
within their range and without a point, texts, arrays. A record may be written as an object or as an array; the items
of an array are fields with the names of the record in their order.
-/
import Concordance.Json.Schema
import Concordance.Proofs.Index.Offsets

namespace Concordance.Json

variable {ε α β : Type}

/-! ## Steps of a reader -/

theorem bind_eq_ok_iff {x : Except ε α} {f : α → Except ε β} {b : β} :
    x >>= f = .ok b ↔ ∃ a, x = .ok a ∧ f a = .ok b := by
  cases x <;> simp [bind, Except.bind]

theorem map_eq_ok_iff {x : Except ε α} {f : α → β} {b : β} : x.map f = .ok b ↔ ∃ a, x = .ok a ∧ f a = b := by
  cases x <;> simp [Except.map]

/-! ## Values -/

/-- Is a value a number of 32 bits, written without a point and an exponent? -/
def IsUInt32 (v : Json) : Prop := ∃ n : Int, v = .integer n ∧ 0 ≤ n ∧ n < 2 ^ 32

def IsText (v : Json) : Prop := ∃ s, v = .text s

def IsArray (v : Json) : Prop := ∃ items, v = .array items

/-- Is a value an array of numbers of 64 bits? -/
def IsOffsets (v : Json) : Prop :=
  ∃ items, v = .array items ∧ ∀ item ∈ items, ∃ n : Int, item = .integer n ∧ 0 ≤ n ∧ n < 2 ^ 64

def ofUInt32 (n : UInt32) : Json := .integer n.toNat

def ofOffsets (offsets : List Nat) : Json := .array (offsets.map fun (o : Nat) => .integer o)

theorem isUInt32_iff {v : Json} : v.IsUInt32 ↔ ∃ n, v = ofUInt32 n := by
  constructor
  · rintro ⟨n, rfl, low, high⟩
    refine ⟨UInt32.ofNat n.toNat, ?_⟩
    have small : n.toNat < UInt32.size := by
      rw [UInt32.size]
      omega
    rw [ofUInt32, UInt32.toNat_ofNat_of_lt' small, Int.toNat_of_nonneg low]
  · rintro ⟨n, rfl⟩
    have := n.toNat_lt_size
    rw [UInt32.size] at this
    exact ⟨n.toNat, rfl, by omega, by omega⟩

theorem isOffsets_iff {v : Json} : v.IsOffsets ↔ ∃ offsets, v = ofOffsets offsets ∧ ∀ o ∈ offsets, o < UInt64.size := by
  constructor
  · rintro ⟨items, rfl, numbers⟩
    induction items with
    | nil => exact ⟨[], rfl, fun _ h => nomatch h⟩
    | cons item items ih =>
      obtain ⟨first, later⟩ := List.forall_mem_cons.1 numbers
      obtain ⟨n, rfl, low, high⟩ := first
      obtain ⟨offsets, same, small⟩ := ih later
      obtain rfl : items = offsets.map fun (o : Nat) => .integer o := Json.array.inj same
      refine ⟨n.toNat :: offsets, ?_, List.forall_mem_cons.2 ⟨?_, small⟩⟩
      · rw [ofOffsets, List.map_cons, Int.toNat_of_nonneg low]
      · rw [UInt64.size]
        omega
  · rintro ⟨offsets, rfl, small⟩
    refine ⟨_, rfl, List.forall_mem_map.2 fun o ho => ?_⟩
    have := small o ho
    rw [UInt64.size] at this
    exact ⟨o, rfl, by omega, by omega⟩

theorem toNatural_eq_ok_iff {bound n : Nat} {expected : String} {v : Json} :
    toNatural bound expected v = .ok n ↔ v = .integer n ∧ n < bound := by
  constructor
  · intro h
    unfold toNatural at h
    split at h
    · rename_i m
      split at h
      · rename_i inside
        cases h
        simp only [Bool.and_eq_true, decide_eq_true_eq] at inside
        constructor
        · congr 1
          omega
        · omega
      · cases h
    · cases h
  · rintro ⟨rfl, h⟩
    exact toNatural_integer h expected

theorem toUInt32_eq_ok_iff {v : Json} {n : UInt32} : toUInt32 v = .ok n ↔ v = ofUInt32 n := by
  constructor
  · intro h
    obtain ⟨m, hm, rfl⟩ := map_eq_ok_iff.1 h
    obtain ⟨rfl, small⟩ := toNatural_eq_ok_iff.1 hm
    rw [ofUInt32, UInt32.toNat_ofNat_of_lt' small]
  · rintro rfl
    exact toUInt32_integer n

theorem toText_eq_ok_iff {v : Json} {s : String} : toText v = .ok s ↔ v = .text s := by
  cases v <;> simp [toText, mismatch]

theorem toItems_eq_ok_iff {v : Json} {items : List Json} : toItems v = .ok items ↔ v = .array items := by
  cases v <;> simp [toItems, mismatch]

theorem mapM_toNatural_eq_ok_iff {bound : Nat} {expected : String} {items : List Json} {numbers : List Nat} :
    items.mapM (toNatural bound expected) = .ok numbers ↔
      items = numbers.map (fun (n : Nat) => .integer n) ∧ ∀ n ∈ numbers, n < bound := by
  constructor
  · intro h
    induction items generalizing numbers with
    | nil =>
      cases h
      simp
    | cons item items ih =>
      rw [List.mapM_cons] at h
      obtain ⟨n, hn, h⟩ := bind_eq_ok_iff.1 h
      obtain ⟨rest, hrest, h⟩ := bind_eq_ok_iff.1 h
      cases h
      obtain ⟨rfl, small⟩ := toNatural_eq_ok_iff.1 hn
      obtain ⟨rfl, others⟩ := ih hrest
      exact ⟨rfl, List.forall_mem_cons.2 ⟨small, others⟩⟩
  · rintro ⟨rfl, small⟩
    exact mapM_toNatural_integers expected small

theorem toOffsets_eq_ok_iff {v : Json} {offsets : List Nat} :
    toOffsets v = .ok offsets ↔ v = ofOffsets offsets ∧ ∀ o ∈ offsets, o < UInt64.size := by
  unfold toOffsets
  rw [bind_eq_ok_iff]
  simp only [toItems_eq_ok_iff, mapM_toNatural_eq_ok_iff, ofOffsets]
  constructor
  · rintro ⟨items, rfl, rfl, small⟩
    exact ⟨rfl, small⟩
  · rintro ⟨rfl, small⟩
    exact ⟨_, rfl, rfl, small⟩

/-! ## Fields -/

/-- Does a field, if it is there, hold a value that is read, and what is it read as? -/
def Takes (decode : Json → Except Fault α) (field : Option Json) (o : Option α) : Prop :=
  field = none ∧ o = none ∨ ∃ v a, field = some v ∧ decode v = .ok a ∧ o = some a

/-- Is `a` the value of a field that may be missing, and is `default` then? -/
def ValueOr (written : α → Json) (default : α) (field : Option Json) (a : α) : Prop :=
  field = some (written a) ∨ field = none ∧ a = default

/-- Is this the table of a field that may be missing or null? -/
def HasTable (field : Option Json) : Option (List Nat) → Prop
  | none => field = none ∨ field = some .null
  | some offsets => field = some (ofOffsets offsets) ∧ ∀ o ∈ offsets, o < UInt64.size

section

variable {decode : Json → Except Fault α} {field : Option Json} {name : String}

theorem fieldIfPresent_eq_ok_iff {fields : List (String × Json)} {o : Option α} :
    fieldIfPresent fields name decode = .ok o ↔ Takes decode (lookup? name fields) o := by
  unfold fieldIfPresent Takes
  cases lookup? name fields with
  | none => simp [eq_comm]
  | some v => simp [map_eq_ok_iff, eq_comm (b := o)]

theorem present_eq_ok_iff {o : Option α} {a : α} : present name o = .ok a ↔ o = some a := by
  cases o <;> simp [present]

theorem takes_some_iff {written : α → Json} (h : ∀ {v a}, decode v = .ok a ↔ v = written a) {a : α} :
    Takes decode field (some a) ↔ field = some (written a) := by
  constructor
  · rintro (⟨-, ⟨⟩⟩ | ⟨v, _, rfl, hv, ⟨⟩⟩)
    rw [h.1 hv]
  · rintro rfl
    exact .inr ⟨_, a, rfl, h.2 rfl, rfl⟩

theorem exists_takes_getD_iff {written : α → Json} (h : ∀ {v a}, decode v = .ok a ↔ v = written a) {default a : α} :
    (∃ o, Takes decode field o ∧ o.getD default = a) ↔ ValueOr written default field a := by
  constructor
  · rintro ⟨_, ⟨rfl, rfl⟩ | ⟨v, b, rfl, hv, rfl⟩, rfl⟩
    · exact .inr ⟨rfl, rfl⟩
    · exact .inl (congrArg some (h.1 hv))
  · rintro (rfl | ⟨rfl, rfl⟩)
    · exact ⟨some a, (takes_some_iff h).2 rfl, rfl⟩
    · exact ⟨none, .inl ⟨rfl, rfl⟩, rfl⟩

theorem exists_takes_join_iff {table : Option (List Nat)} :
    (∃ o, Takes (toOptional toOffsets) field o ∧ o.join = table) ↔ HasTable field table := by
  constructor
  · rintro ⟨_, ⟨rfl, rfl⟩ | ⟨v, read, rfl, hv, rfl⟩, rfl⟩
    · exact .inl rfl
    · unfold toOptional at hv
      split at hv
      · cases hv
        exact .inr rfl
      · obtain ⟨offsets, ho, rfl⟩ := map_eq_ok_iff.1 hv
        obtain ⟨rfl, small⟩ := toOffsets_eq_ok_iff.1 ho
        exact ⟨rfl, small⟩
  · cases table with
    | none =>
      rintro (rfl | rfl)
      · exact ⟨none, .inl ⟨rfl, rfl⟩, rfl⟩
      · exact ⟨some none, .inr ⟨.null, none, rfl, rfl, rfl⟩, rfl⟩
    | some offsets =>
      rintro ⟨rfl, small⟩
      have read : toOptional toOffsets (ofOffsets offsets) = .ok (some offsets) :=
        map_eq_ok_iff.2 ⟨offsets, toOffsets_eq_ok_iff.2 ⟨rfl, small⟩, rfl⟩
      exact ⟨some (some offsets), .inr ⟨_, _, rfl, read, rfl⟩, rfl⟩

/-- A field that has to be there holds a value of a type if it holds one that the type is written as. -/
theorem exists_mem_iff {P : Json → Prop} {written : α → Json} (h : ∀ {v}, P v ↔ ∃ a, v = written a) :
    (∃ v ∈ field, P v) ↔ ∃ a, field = some (written a) := by
  constructor
  · rintro ⟨v, rfl, hv⟩
    obtain ⟨a, rfl⟩ := h.1 hv
    exact ⟨a, rfl⟩
  · rintro ⟨a, rfl⟩
    exact ⟨_, rfl, h.2 ⟨a, rfl⟩⟩

/-- A field that may be missing holds nothing but values of a type if it has a value of the type or the default. -/
theorem forall_mem_iff {P : Json → Prop} {written : α → Json} (h : ∀ {v}, P v ↔ ∃ a, v = written a) (default : α) :
    (∀ v ∈ field, P v) ↔ ∃ a, ValueOr written default field a := by
  constructor
  · intro all
    cases field with
    | none => exact ⟨default, .inr ⟨rfl, rfl⟩⟩
    | some v =>
      obtain ⟨a, rfl⟩ := h.1 (all v rfl)
      exact ⟨a, .inl rfl⟩
  · rintro ⟨a, rfl | ⟨rfl, -⟩⟩ v hv
    · cases hv
      exact h.2 ⟨a, rfl⟩
    · cases hv

theorem forall_mem_table_iff : (∀ v ∈ field, v = .null ∨ v.IsOffsets) ↔ ∃ table, HasTable field table := by
  constructor
  · intro all
    cases field with
    | none => exact ⟨none, .inl rfl⟩
    | some v =>
      rcases all v rfl with rfl | hv
      · exact ⟨none, .inr rfl⟩
      · obtain ⟨offsets, rfl, small⟩ := isOffsets_iff.1 hv
        exact ⟨some offsets, rfl, small⟩
  · rintro ⟨_ | offsets, h⟩ v hv
    · rcases h with rfl | rfl
      · cases hv
      · cases hv
        exact .inl rfl
    · obtain ⟨rfl, small⟩ := h
      cases hv
      exact .inr (isOffsets_iff.2 ⟨offsets, rfl, small⟩)

/-! ## Fields of an array -/

theorem positional_bind_eq_ok_iff {x : Positional α} {f : α → Positional β} {items : List Json} {r : β × List Json} :
    (x >>= f) items = .ok r ↔ ∃ a rest, x items = .ok (a, rest) ∧ f a rest = .ok r := by
  show (x items >>= fun p => f p.1 p.2) = .ok r ↔ _
  rw [bind_eq_ok_iff, Prod.exists]

theorem nextIfPresent_eq_ok_iff {items rest : List Json} {o : Option α} :
    nextIfPresent decode items = .ok (o, rest) ↔ Takes decode items.head? o ∧ rest = items.tail := by
  unfold nextIfPresent Takes
  cases items with
  | nil => simp [eq_comm]
  | cons v items => simp [map_eq_ok_iff, eq_comm (b := o), eq_comm (b := rest), ← exists_and_right, and_assoc]

theorem next_eq_ok_iff {record : String} {size index : Nat} {items rest : List Json} {a : α} :
    next record size index decode items = .ok (a, rest) ↔ Takes decode items.head? (some a) ∧ rest = items.tail := by
  unfold next Takes
  cases items with
  | nil => simp
  | cons v items => simp [map_eq_ok_iff, eq_comm (b := rest)]

theorem readPositional_eq_ok_iff {items : List Json} {record : Positional α} {a : α} :
    readPositional items record = .ok a ↔ record items = .ok (a, []) := by
  unfold readPositional
  rw [bind_eq_ok_iff]
  constructor
  · rintro ⟨⟨b, rest⟩, h, ended⟩
    cases rest with
    | nil =>
      cases ended
      exact h
    | cons v rest => cases ended
  · exact fun h => ⟨_, h, rfl⟩

/-- The first name is that of the first item. -/
theorem lookup?_zip_self (names : List String) (items : List Json) :
    lookup? name ((name :: names).zip items) = items.head? := by
  cases items with
  | nil => rfl
  | cons v items => exact if_pos rfl

/-- The other names are those of the other items. -/
theorem lookup?_zip_of_ne {other : String} (h : other ≠ name) (names : List String) (items : List Json) :
    lookup? name ((other :: names).zip items) = lookup? name (names.zip items.tail) := by
  cases items with
  | nil => cases names <;> rfl
  | cons v items => exact if_neg h

end

/--
Do the fields of a value satisfy `P`? They are those of an object, or the items of an array of at least so many items
under these names, as many as there are items.
-/
def IsRecord (names : List String) (least : Nat) (P : List (String × Json) → Prop) (v : Json) : Prop :=
  (∃ fields, v = .object fields ∧ P fields) ∨
    ∃ items, v = .array items ∧ least ≤ items.length ∧ items.length ≤ names.length ∧ P (names.zip items)

/--
A reader of records reads them as records: objects by their fields, arrays that are not too long by their items under
the names of the fields, and nothing else.
-/
theorem eq_ok_iff_isRecord {decode : Json → Except Fault α} {a : α} {P : List (String × Json) → Prop}
    {names : List String} {least : Nat} (object : ∀ fields, decode (.object fields) = .ok a ↔ P fields)
    (array : ∀ items, decode (.array items) = .ok a ↔ items.length ≤ names.length ∧ P (names.zip items))
    (enough : ∀ items, P (names.zip items) → least ≤ items.length)
    (other : ∀ v, decode v = .ok a → (∃ fields, v = .object fields) ∨ ∃ items, v = .array items) (v : Json) :
    decode v = .ok a ↔ IsRecord names least P v := by
  constructor
  · intro h
    rcases other v h with ⟨fields, rfl⟩ | ⟨items, rfl⟩
    · exact .inl ⟨fields, rfl, (object fields).1 h⟩
    · obtain ⟨most, hp⟩ := (array items).1 h
      exact .inr ⟨items, rfl, enough items hp, most, hp⟩
  · rintro (⟨fields, rfl, hp⟩ | ⟨items, rfl, -, most, hp⟩)
    · exact (object fields).2 hp
    · exact (array items).2 ⟨most, hp⟩

theorem isRecord_iff_exists {P : List (String × Json) → Prop} {Q : List (String × Json) → α → Prop}
    (h : ∀ {fields}, P fields ↔ ∃ a, Q fields a) {names : List String} {least : Nat} {v : Json} :
    IsRecord names least P v ↔ ∃ a, IsRecord names least (Q · a) v := by
  constructor
  · rintro (⟨fields, rfl, hp⟩ | ⟨items, rfl, low, high, hp⟩)
    · obtain ⟨a, ha⟩ := h.1 hp
      exact ⟨a, .inl ⟨fields, rfl, ha⟩⟩
    · obtain ⟨a, ha⟩ := h.1 hp
      exact ⟨a, .inr ⟨items, rfl, low, high, ha⟩⟩
  · rintro ⟨a, ⟨fields, rfl, ha⟩ | ⟨items, rfl, low, high, ha⟩⟩
    · exact .inl ⟨fields, rfl, h.2 ⟨a, ha⟩⟩
    · exact .inr ⟨items, rfl, low, high, h.2 ⟨a, ha⟩⟩

end Concordance.Json
