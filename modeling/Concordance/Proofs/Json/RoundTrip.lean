/-
A JSON value is read back from the text it is written as. The value may hold any strings and integers of 64 bits;
the names of each object are distinct, and no more brackets stand around anything than the reader keeps open. What
stands inside brackets is read back in front of the rest of the brackets, so that no text needs to be cut up first.
-/
import Concordance.Proofs.Json.Leaves
import Mathlib.Data.List.DropRight

namespace Concordance.Json

/-! ## Blanks in front -/

theorem skipSpace_skipSpace (s : List Char) : skipSpace (skipSpace s) = skipSpace s :=
  List.dropWhile_idempotent isSpace s

theorem skipSpace_newLine (indent : Nat) (s : List Char) : skipSpace (newLine indent ++ s) = skipSpace s := by
  apply skipSpace_append_of_isSpace
  intro c hc
  rcases List.mem_cons.1 hc with rfl | hc
  · rfl
  · rw [List.eq_of_mem_replicate hc]
    rfl

/-- What a text holds depends on the text behind the blanks in front. -/
theorem value?_congr {s t : List Char} (h : skipSpace s = skipSpace t) (fuel depth : Nat) :
    value? fuel depth s = value? fuel depth t := by
  cases fuel with
  | zero => rw [value?, value?]
  | succ fuel => rw [value?, value?, h]

theorem value?_space {fuel depth : Nat} {s : List Char} : value? fuel depth (' ' :: s) = value? fuel depth s :=
  value?_congr (show skipSpace (' ' :: s) = skipSpace s from rfl) fuel depth

theorem items?_congr {s t : List Char} (h : skipSpace s = skipSpace t) (fuel depth : Nat) :
    items? fuel depth s = items? fuel depth t := by
  cases fuel with
  | zero => rw [items?, items?]
  | succ fuel => rw [items?, items?, value?_congr h]

theorem fields?_congr {s t : List Char} (h : skipSpace s = skipSpace t) (fuel depth : Nat)
    (read : List (String × Json)) : fields? fuel depth read s = fields? fuel depth read t := by
  cases fuel with
  | zero => rw [fields?, fields?]
  | succ fuel => rw [fields?, fields?, h]

/-! ## Arrays -/

section

variable {fuel depth : Nat} {s after next rest : List Char} {v : Json} {items : List Json}

theorem items?_last (hv : value? fuel depth s = some (v, after)) (hr : skipSpace after = ']' :: rest) :
    items? (fuel + 1) depth s = some ([v], rest) := by
  simp only [items?, hv, hr, Option.bind_eq_bind, Option.bind_some]

theorem items?_cons (hv : value? fuel depth s = some (v, after)) (hr : skipSpace after = ',' :: next)
    (hi : items? fuel depth next = some (items, rest)) : items? (fuel + 1) depth s = some (v :: items, rest) := by
  simp only [items?, hv, hr, hi, Option.bind_eq_bind, Option.bind_some]

/-- No item starts with a closing bracket. -/
theorem items?_closed (hs : skipSpace s = ']' :: next) : items? fuel depth s = none := by
  cases fuel with
  | zero => rw [items?]
  | succ fuel =>
    have none : value? fuel depth s = none := by
      cases fuel with
      | zero => rw [value?]
      | succ fuel =>
        rw [value?, hs]
        rfl
    simp only [items?, none, Option.bind_eq_bind, Option.bind_none]

/-- An array holds the items behind its opening bracket. -/
theorem value?_of_items? (h : items? fuel depth s = some (items, rest)) :
    value? (fuel + 1) (depth + 1) ('[' :: s) = some (.array items, rest) := by
  have inside := items?_congr (skipSpace_skipSpace s) fuel depth
  rw [value?, skipSpace_of_not_isSpace (by decide)]
  simp only [Nat.add_eq_zero_iff, one_ne_zero, and_false, if_false, Nat.add_sub_cancel]
  split
  · rename_i closed
    rw [items?_closed closed] at h
    cases h
  · rw [inside, h]
    rfl

end

/-! ## Objects -/

/-- Setting a new field puts it behind the others. -/
theorem putField_of_notMem {name : String} {v : Json} : ∀ {fields : List (String × Json)},
    name ∉ fields.map Prod.fst → putField name v fields = fields ++ [(name, v)]
  | [], _ => rfl
  | (key, old) :: fields, h => by
    have later : name ∉ fields.map Prod.fst := List.not_mem_of_not_mem_cons h
    rw [putField, if_neg (List.ne_of_not_mem_cons h).symm, putField_of_notMem later, List.cons_append]

theorem isSpace_colon : isSpace ':' = false := by decide

theorem notMem_of_nodup_append {read fields : List (String × Json)} {name : String} {v : Json}
    (h : ((read ++ (name, v) :: fields).map Prod.fst).Nodup) : name ∉ read.map Prod.fst := by
  rw [List.map_append, List.map_cons] at h
  exact fun hmem => List.disjoint_of_nodup_append h hmem List.mem_cons_self

section

variable {fuel depth : Nat} {s after next rest : List Char} {name : String} {v : Json}
  {read fields : List (String × Json)}

theorem fields?_last (hv : value? fuel depth s = some (v, after)) (hr : skipSpace after = '\x7d' :: rest) :
    fields? (fuel + 1) depth read (printString name ++ ':' :: s) = some (putField name v read, rest) := by
  obtain ⟨t, opened, body⟩ := exists_printString_append name (':' :: s)
  rw [opened, fields?, skipSpace_of_not_isSpace (by decide)]
  simp only [body, skipSpace_of_not_isSpace isSpace_colon, hv, hr, Option.bind_eq_bind, Option.bind_some,
    String.ofList_toList]

theorem fields?_cons (hv : value? fuel depth s = some (v, after)) (hr : skipSpace after = ',' :: next) :
    fields? (fuel + 1) depth read (printString name ++ ':' :: s) =
      fields? fuel depth (putField name v read) next := by
  obtain ⟨t, opened, body⟩ := exists_printString_append name (':' :: s)
  rw [opened, fields?, skipSpace_of_not_isSpace (by decide)]
  simp only [body, skipSpace_of_not_isSpace isSpace_colon, hv, hr, Option.bind_eq_bind, Option.bind_some,
    String.ofList_toList]

/-- No field starts with a closing brace. -/
theorem fields?_closed (hs : skipSpace s = '\x7d' :: next) : fields? fuel depth read s = none := by
  cases fuel with
  | zero => rw [fields?]
  | succ fuel =>
    rw [fields?, hs]
    rfl

/-- An object holds the fields behind its opening brace. -/
theorem value?_of_fields? (h : fields? fuel depth [] s = some (fields, rest)) :
    value? (fuel + 1) (depth + 1) ('\x7b' :: s) = some (.object fields, rest) := by
  have inside := fields?_congr (skipSpace_skipSpace s) fuel depth []
  rw [value?, skipSpace_of_not_isSpace (by decide)]
  simp only [Nat.add_eq_zero_iff, one_ne_zero, and_false, if_false, Nat.add_sub_cancel]
  split
  · rename_i closed
    rw [fields?_closed closed] at h
    cases h
  · rw [inside, h]
    rfl

end

/-! ## Values -/

/--
Is a value read back from its text at every indentation, in front of any rest that no number goes on into? Two steps
for each character of the text are enough: one for the value and one for the item or field that it is.
-/
def ReadsBack (depth : Nat) (v : Json) : Prop :=
  ∀ (indent fuel : Nat) (rest : List Char), EndsNumber rest → 2 * (print indent v).length ≤ fuel →
    value? fuel depth (print indent v ++ rest) = some (v, rest)

/-- A value without brackets is read in one step. -/
theorem readsBack_of_leaf {depth : Nat} {v : Json} (written : ∀ indent, print indent v ≠ [])
    (h : ∀ (indent fuel : Nat) (rest : List Char), EndsNumber rest →
      value? (fuel + 1) depth (print indent v ++ rest) = some (v, rest)) : ReadsBack depth v := by
  rintro indent (_ | fuel) rest ends hfuel
  · have := List.length_pos_iff.2 (written indent)
    omega
  · exact h indent fuel rest ends

theorem ReadsBack.before_comma {depth : Nat} {v : Json} (h : ReadsBack depth v) {indent fuel : Nat}
    (hfuel : 2 * (print indent v).length ≤ fuel) (s : List Char) :
    value? fuel depth (print indent v ++ ',' :: s) = some (v, ',' :: s) :=
  h indent fuel _ (endsNumber_comma s) hfuel

theorem ReadsBack.before_newLine {depth : Nat} {v : Json} (h : ReadsBack depth v) {indent fuel : Nat}
    (hfuel : 2 * (print indent v).length ≤ fuel) (outer : Nat) (s : List Char) :
    value? fuel depth (print indent v ++ (newLine outer ++ s)) = some (v, newLine outer ++ s) :=
  h indent fuel _ (endsNumber_newLine outer s) hfuel

theorem items?_print {depth : Nat} (indent outer : Nat) (rest : List Char) :
    ∀ (fuel : Nat) {items : List Json} {v : Json}, (∀ w ∈ v :: items, ReadsBack depth w) →
      2 * (print indent v ++ printItems indent items).length < fuel →
        items? fuel depth (print indent v ++ (printItems indent items ++ (newLine outer ++ ']' :: rest))) =
          some (v :: items, rest)
  | fuel + 1, [], v, h, hfuel => by
    -- the last item ends at the line break in front of the closing bracket
    rw [printItems, List.append_nil] at hfuel
    have closed : skipSpace (newLine outer ++ ']' :: rest) = ']' :: rest := skipSpace_newLine outer _
    exact items?_last ((h v List.mem_cons_self).before_newLine (by omega) outer _) closed
  | fuel + 1, w :: items, v, h, hfuel => by
    -- the comma behind the item pays for the step to the next one
    have comma : printItems indent (w :: items) ++ (newLine outer ++ ']' :: rest) =
        ',' :: (newLine indent ++ (print indent w ++ (printItems indent items ++ (newLine outer ++ ']' :: rest)))) := by
      simp [printItems]
    simp only [printItems, List.length_append, List.length_cons] at hfuel
    have later := items?_print indent outer rest fuel (fun x hx => h x (List.mem_cons_of_mem v hx))
      (by rw [List.length_append]; omega)
    rw [← items?_congr (skipSpace_newLine indent _)] at later
    rw [comma]
    exact items?_cons ((h v List.mem_cons_self).before_comma (by omega) _) rfl later

theorem readsBack_array {depth : Nat} {items : List Json} (h : ∀ v ∈ items, ReadsBack depth v) :
    ReadsBack (depth + 1) (.array items) := by
  cases items with
  | nil => exact readsBack_of_leaf (fun _ => List.cons_ne_nil _ _) fun _ _ _ _ => rfl
  | cons v items =>
    rintro indent (_ | fuel) rest - hfuel
    · cases hfuel
    have brackets : print indent (.array (v :: items)) ++ rest = '[' :: (newLine (indent + 1) ++
        (print (indent + 1) v ++ (printItems (indent + 1) items ++ (newLine indent ++ ']' :: rest)))) := by
      simp [print]
    simp only [print, List.length_append, List.length_cons] at hfuel
    have inside := items?_print (indent + 1) indent rest fuel h (by rw [List.length_append]; omega)
    rw [← items?_congr (skipSpace_newLine (indent + 1) _)] at inside
    rw [brackets]
    exact value?_of_items? inside

theorem fields?_print {depth : Nat} (indent outer : Nat) (rest : List Char) :
    ∀ (fuel : Nat) (read : List (String × Json)) {fields : List (String × Json)} {name : String} {v : Json},
      (∀ f ∈ (name, v) :: fields, ReadsBack depth f.2) → ((read ++ (name, v) :: fields).map Prod.fst).Nodup →
      2 * (print indent v ++ printFields indent fields).length < fuel →
        fields? fuel depth read (printString name ++
          ':' :: ' ' :: (print indent v ++ (printFields indent fields ++ (newLine outer ++ '\x7d' :: rest)))) =
          some (read ++ (name, v) :: fields, rest)
  | fuel + 1, read, [], name, v, h, hnames, hfuel => by
    have first : ReadsBack depth v := h _ List.mem_cons_self
    have closed : skipSpace (newLine outer ++ '\x7d' :: rest) = '\x7d' :: rest := skipSpace_newLine outer _
    rw [printFields, List.append_nil] at hfuel
    rw [← putField_of_notMem (notMem_of_nodup_append hnames)]
    exact fields?_last (value?_space.trans (first.before_newLine (by omega) outer _)) closed
  | fuel + 1, read, (key, w) :: fields, name, v, h, hnames, hfuel => by
    have first : ReadsBack depth v := h _ List.mem_cons_self
    have put : putField name v read = read ++ [(name, v)] := putField_of_notMem (notMem_of_nodup_append hnames)
    have comma : printFields indent ((key, w) :: fields) ++ (newLine outer ++ '\x7d' :: rest) =
        ',' :: (newLine indent ++ (printString key ++
          ':' :: ' ' :: (print indent w ++ (printFields indent fields ++ (newLine outer ++ '\x7d' :: rest))))) := by
      simp [printFields]
    simp only [printFields, List.length_append, List.length_cons] at hfuel
    have later := fields?_print indent outer rest fuel (read ++ [(name, v)])
      (fun f hf => h f (List.mem_cons_of_mem _ hf)) (by simpa using hnames) (by rw [List.length_append]; omega)
    rw [← fields?_congr (skipSpace_newLine indent _)] at later
    rw [comma, fields?_cons (value?_space.trans (first.before_comma (by omega) _)) rfl, put, later,
      List.append_assoc, List.singleton_append]

theorem readsBack_object {depth : Nat} {fields : List (String × Json)} (hnames : (fields.map Prod.fst).Nodup)
    (h : ∀ f ∈ fields, ReadsBack depth f.2) : ReadsBack (depth + 1) (.object fields) := by
  match fields with
  | [] => exact readsBack_of_leaf (fun _ => List.cons_ne_nil _ _) fun _ _ _ _ => rfl
  | (name, v) :: fields =>
    rintro indent (_ | fuel) rest - hfuel
    · cases hfuel
    have braces : print indent (.object ((name, v) :: fields)) ++ rest = '\x7b' :: (newLine (indent + 1) ++
        (printString name ++ ':' :: ' ' :: (print (indent + 1) v ++
          (printFields (indent + 1) fields ++ (newLine indent ++ '\x7d' :: rest))))) := by
      simp [print]
    simp only [print, List.length_append, List.length_cons] at hfuel
    have inside := fields?_print (indent + 1) indent rest fuel [] h hnames (by rw [List.length_append]; omega)
    rw [← fields?_congr (skipSpace_newLine (indent + 1) _)] at inside
    rw [braces]
    exact value?_of_fields? inside

/--
Can a value be read back from its text while `depth` brackets may be open? It holds no real numbers and no integers
beyond 64 bits, the names in each object are distinct, and no more than `depth` brackets are inside each other.
-/
inductive Readable : Nat → Json → Prop where
  | null (depth : Nat) : Readable depth .null
  | bool (depth : Nat) (b : Bool) : Readable depth (.bool b)
  | integer (depth : Nat) {n : Int} (h : IsInteger64 n) : Readable depth (.integer n)
  | text (depth : Nat) (s : String) : Readable depth (.text s)
  | array {depth : Nat} {items : List Json} (h : ∀ v ∈ items, Readable depth v) : Readable (depth + 1) (.array items)
  | object {depth : Nat} {fields : List (String × Json)} (hnames : (fields.map Prod.fst).Nodup)
      (h : ∀ f ∈ fields, Readable depth f.2) : Readable (depth + 1) (.object fields)

theorem Readable.readsBack {depth : Nat} {v : Json} (h : Readable depth v) : ReadsBack depth v := by
  induction h with
  | null depth => exact readsBack_of_leaf (fun _ => List.cons_ne_nil _ _) fun _ _ _ _ => rfl
  | bool depth b =>
    cases b with
    | true => exact readsBack_of_leaf (fun _ => List.cons_ne_nil _ _) fun _ _ _ _ => rfl
    | false => exact readsBack_of_leaf (fun _ => List.cons_ne_nil _ _) fun _ _ _ _ => rfl
  | @integer depth n h =>
    have written : (integerText n).toList ≠ [] := by
      rw [toList_integerText]
      split
      · exact List.cons_ne_nil _ _
      · exact Text.decimal_ne_nil _
    refine readsBack_of_leaf (fun _ => by rw [print]; exact written) fun _ fuel rest ends => ?_
    rw [print]
    exact value?_integerText h ends fuel depth
  | text depth s =>
    refine readsBack_of_leaf (fun _ => by simp [print, printString]) fun _ fuel rest _ => ?_
    rw [print]
    exact value?_printString s rest fuel depth
  | array _ ih => exact readsBack_array ih
  | object hnames _ ih => exact readsBack_object hnames ih

/-- A value is read back from its text and the blanks behind it. -/
theorem parse?_pretty_append {v : Json} (h : Readable maxDepth v) {blanks : String}
    (hb : ∀ c ∈ blanks.toList, isSpace c = true) : parse? (v.pretty ++ blanks) = some v := by
  have ends : EndsNumber blanks.toList := by
    intro c hc
    have space := hb c (List.mem_of_mem_head? hc)
    simp only [isSpace, Bool.or_eq_true, decide_eq_true_eq] at space
    rcases space with ((rfl | rfl) | rfl) | rfl <;> decide
  have read := h.readsBack 0 (2 * (print 0 v ++ blanks.toList).length + 2) blanks.toList ends
    (by rw [List.length_append]; omega)
  have behind : skipSpace blanks.toList = [] := List.dropWhile_eq_nil_iff.2 hb
  simp only [parse?, pretty, String.toList_append, String.toList_ofList, read, behind, Option.bind_eq_bind,
    Option.bind_some]
  rfl

/-- A value is read back from its text. -/
theorem parse?_pretty {v : Json} (h : Readable maxDepth v) : parse? v.pretty = some v := by
  have read := parse?_pretty_append h (show ∀ c ∈ "".toList, isSpace c = true from nofun)
  rwa [String.append_empty] at read

end Concordance.Json
