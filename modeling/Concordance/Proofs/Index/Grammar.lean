/-
What the spellings of terms ask for. The grammar is deterministic, so each lemma follows the reader through
one layer of it: phrases side by side, a group in parentheses, alternatives, a NEAR group.
-/
import Concordance.Proofs.Index.Symbols

namespace Concordance

open Text

namespace Index

/-- Is it the symbol of a phrase? -/
def Symbol.isPhrase : Symbol → Bool
  | bare _ => true
  | string _ => true
  | _ => false

/-- The text of the phrase that a symbol stands for. -/
def Symbol.text : Symbol → List Char
  | bare s => s
  | string s => s
  | _ => []

/-- What phrases side by side ask for. -/
def sideBySide (symbols : List Symbol) : Expression := .ofParts (symbols.map fun s => .phrase s.text)

/-- Does no further phrase, NEAR group or group in parentheses follow? -/
def Stops (rest : List Symbol) : Prop := ∀ s ∈ rest.head?, s.isPhrase = false ∧ s ≠ .openParen

/-- Does no operator follow that binds tighter than OR? -/
def Ors (rest : List Symbol) : Prop := ∀ s ∈ rest.head?, s ≠ .not ∧ s ≠ .and

theorem stops_cons {s : Symbol} (h : s.isPhrase = false ∧ s ≠ .openParen) (rest : List Symbol) :
    Stops (s :: rest) := by
  intro x hx
  cases hx
  exact h

theorem ors_cons {s : Symbol} (h : s ≠ .not ∧ s ≠ .and) (rest : List Symbol) : Ors (s :: rest) := by
  intro x hx
  cases hx
  exact h

/-! ## Phrases side by side -/

theorem sideBySide?_of_stops {rest : List Symbol} (h : Stops rest) (fuel : Nat) :
    sideBySide? (fuel + 1) rest = some ([], rest) := by
  cases rest with
  | nil => rfl
  | cons s rest =>
    obtain ⟨hs, ho⟩ := h s rfl
    cases s with
    | bare _ => cases hs
    | string _ => cases hs
    | openParen => exact absurd rfl ho
    | _ => rfl

theorem sideBySide?_cons {s : Symbol} (hs : s.isPhrase = true) {rest : List Symbol}
    (h : ∀ x ∈ rest.head?, x ≠ .openParen) (fuel : Nat) :
    sideBySide? (fuel + 1) (s :: rest) =
      (sideBySide? fuel rest).map fun (parts, rest) => (.phrase s.text :: parts, rest) := by
  cases s with
  | bare w =>
    cases rest with
    | nil => rfl
    | cons x rest => cases x <;> first | rfl | exact absurd rfl (h .openParen rfl)
  | string w =>
    cases rest with
    | nil => rfl
    | cons x rest => cases x <;> first | rfl | exact absurd rfl (h .openParen rfl)
  | _ => cases hs

theorem sideBySide?_phrases {rest : List Symbol} (hr : Stops rest) :
    ∀ {symbols : List Symbol} {fuel : Nat}, (∀ s ∈ symbols, s.isPhrase = true) → symbols.length < fuel →
      sideBySide? fuel (symbols ++ rest) = some (symbols.map fun s => .phrase s.text, rest)
  | _, 0, _, hf => absurd hf (Nat.not_lt_zero _)
  | [], fuel + 1, _, _ => sideBySide?_of_stops hr fuel
  | s :: symbols, fuel + 1, hs, hf => by
    have hsymbols : ∀ x ∈ symbols, x.isPhrase = true := fun x hx => hs x (List.mem_cons_of_mem _ hx)
    -- a parenthesis right behind a word would be that of a NEAR group
    have next : ∀ x ∈ (symbols ++ rest).head?, x ≠ .openParen := by
      rintro x hx rfl
      cases symbols with
      | nil => exact (hr _ hx).2 rfl
      | cons y symbols =>
        cases hx
        cases hsymbols .openParen List.mem_cons_self
    rw [List.cons_append, sideBySide?_cons (hs s List.mem_cons_self) next,
      sideBySide?_phrases hr hsymbols (Nat.lt_of_succ_lt_succ hf)]
    rfl

/-- Parts side by side that do not start with a parenthesis are all there is of a primary. -/
theorem primary?_of_sideBySide? {s rest : List Symbol} (hs : ∀ x ∈ s.head?, x ≠ .openParen) {part : Expression}
    {parts : List Expression} (h : sideBySide? (s.length + 1) s = some (part :: parts, rest)) (fuel : Nat) :
    primary? (fuel + 1) s = some (.ofParts (part :: parts), rest) := by
  unfold primary?
  split
  · exact absurd rfl (hs .openParen rfl)
  · rw [h]

theorem primary?_phrases {symbols rest : List Symbol} (hne : symbols ≠ []) (hs : ∀ s ∈ symbols, s.isPhrase = true)
    (hr : Stops rest) (fuel : Nat) : primary? (fuel + 1) (symbols ++ rest) = some (sideBySide symbols, rest) := by
  have parts : sideBySide? ((symbols ++ rest).length + 1) (symbols ++ rest) = _ :=
    sideBySide?_phrases hr hs (by rw [List.length_append]; omega)
  obtain ⟨s, symbols, rfl⟩ := List.exists_cons_of_ne_nil hne
  refine primary?_of_sideBySide? ?_ parts fuel
  rintro x hx rfl
  cases hx
  cases hs .openParen List.mem_cons_self

/-! ## Layers -/

theorem conjunction?_of_primary? {s rest : List Symbol} {e : Expression} {fuel : Nat}
    (h : primary? (fuel + 1) s = some (e, rest)) (hr : Ors rest) : conjunction? (fuel + 3) s = some (e, rest) := by
  have negations : negationRest? (fuel + 1) e rest = some (e, rest) := by
    unfold negationRest?
    split
    · exact absurd rfl (hr .not rfl).1
    · rfl
  have negation : negation? (fuel + 2) s = some (e, rest) := by
    unfold negation?
    rw [h]
    exact negations
  unfold conjunction?
  rw [negation]
  show conjunctionRest? (fuel + 2) e rest = _
  unfold conjunctionRest?
  split
  · exact absurd rfl (hr .and rfl).2
  · rfl

theorem primary?_parens {symbols rest : List Symbol} (hne : symbols ≠ []) (hs : ∀ s ∈ symbols, s.isPhrase = true)
    (fuel : Nat) :
    primary? (fuel + 5) ([.openParen] ++ symbols ++ [.closeParen] ++ rest) = some (sideBySide symbols, rest) := by
  have stops : Stops (.closeParen :: rest) := stops_cons (by decide) rest
  have ors : Ors (.closeParen :: rest) := ors_cons (by decide) rest
  -- inside the parentheses every layer passes the phrases on
  have inner : disjunction? (fuel + 4) (symbols ++ .closeParen :: rest) =
      some (sideBySide symbols, .closeParen :: rest) := by
    unfold disjunction?
    rw [conjunction?_of_primary? (primary?_phrases hne hs stops fuel) ors]
    rfl
  have shape : [.openParen] ++ symbols ++ [.closeParen] ++ rest = .openParen :: (symbols ++ .closeParen :: rest) := by
    simp
  rw [shape]
  unfold primary?
  dsimp only
  rw [inner]

/-! ## Terms -/

theorem isPhrase_ofText (s : List Char) : (Symbol.ofText s).isPhrase = true := by
  unfold Symbol.ofText
  split <;> rfl

theorem text_ofText (s : List Char) : (Symbol.ofText s).text = s := by
  unfold Symbol.ofText
  split <;> rfl

theorem isPhrase_of_mem_symbolsOf {t : Term} {s : Symbol} (h : s ∈ symbolsOf t) : s.isPhrase = true := by
  unfold symbolsOf at h
  split at h
  · rw [List.mem_singleton.1 h]
    rfl
  · obtain ⟨w, -, rfl⟩ := List.mem_map.1 h
    exact isPhrase_ofText w

theorem read?_of_spells {e : List Char} {symbols : List Symbol} (h : Spells e symbols) {x : Expression}
    (hd : disjunction? (6 * symbols.length + 6) symbols = some (x, [])) : read? e = some x := by
  unfold read?
  rw [h.read]
  show (disjunction? (6 * symbols.length + 6) symbols).bind _ = _
  rw [hd]
  rfl

/-- Phrases side by side are read as such. -/
theorem read?_of_phrases {e : List Char} {symbols : List Symbol} (h : Spells e symbols) (hne : symbols ≠ [])
    (hs : ∀ s ∈ symbols, s.isPhrase = true) : read? e = some (sideBySide symbols) := by
  refine read?_of_spells h ?_
  have stops : Stops [] := fun _ h => nomatch h
  have phrases := primary?_phrases hne hs stops (6 * symbols.length + 2)
  rw [List.append_nil] at phrases
  unfold disjunction?
  rw [conjunction?_of_primary? phrases fun _ h => nomatch h]
  rfl

/-- A term that is spelled at all is read as its phrases side by side. -/
theorem read?_termExpr {t : Term} (h : NulFree t) (hne : symbolsOf t ≠ []) :
    read? (termExpr t) = some (sideBySide (symbolsOf t)) :=
  read?_of_phrases (spells_termExpr h) hne fun _ => isPhrase_of_mem_symbolsOf

/-- Several terms are read as all their phrases side by side. -/
theorem read?_allExpr {terms : List Term} (h : ∀ t ∈ terms, NulFree t) (hne : terms.flatMap symbolsOf ≠ []) :
    read? (allExpr terms) = some (sideBySide (terms.flatMap symbolsOf)) := by
  refine read?_of_phrases (spells_allExpr h) hne fun s hs => ?_
  obtain ⟨t, -, ht⟩ := List.mem_flatMap.1 hs
  exact isPhrase_of_mem_symbolsOf ht

/-! ## Alternatives -/

/-- What a term asks for among alternatives. -/
def exprOf (t : Term) : Expression := sideBySide (symbolsOf t)

theorem primary?_disjunctOf {t : Term} (hne : symbolsOf t ≠ []) {rest : List Symbol} (hr : Stops rest)
    (fuel : Nat) : primary? (fuel + 5) (disjunctOf t ++ rest) = some (exprOf t, rest) := by
  unfold disjunctOf
  split
  · exact primary?_parens hne (fun _ => isPhrase_of_mem_symbolsOf) fuel
  · exact primary?_phrases hne (fun _ => isPhrase_of_mem_symbolsOf) hr (fuel + 4)

/-- The symbols of further alternatives. -/
def alternatives (ts : List Term) : List Symbol := ts.flatMap ([.or] ++ disjunctOf ·)

theorem alternatives_cons (t : Term) (ts : List Term) :
    alternatives (t :: ts) = .or :: (disjunctOf t ++ alternatives ts) := rfl

theorem stops_alternatives (ts : List Term) : Stops (alternatives ts) := by
  cases ts with
  | nil => exact fun _ h => nomatch h
  | cons t ts => exact stops_cons (by decide) _

theorem ors_alternatives (ts : List Term) : Ors (alternatives ts) := by
  cases ts with
  | nil => exact fun _ h => nomatch h
  | cons t ts => exact ors_cons (by decide) _

theorem conjunction?_disjunctOf {t : Term} (hne : symbolsOf t ≠ []) (ts : List Term) (fuel : Nat) :
    conjunction? (fuel + 7) (disjunctOf t ++ alternatives ts) = some (exprOf t, alternatives ts) :=
  conjunction?_of_primary? (primary?_disjunctOf hne (stops_alternatives ts) fuel) (ors_alternatives ts)

theorem disjunctionRest?_alternatives :
    ∀ {ts : List Term} (left : Expression) (fuel : Nat), (∀ t ∈ ts, symbolsOf t ≠ []) →
      disjunctionRest? (ts.length + fuel + 8) left (alternatives ts) =
        some (ts.foldl (fun left t => .or left (exprOf t)) left, [])
  | [], left, fuel, _ => rfl
  | t :: ts, left, fuel, h => by
    have ih := disjunctionRest?_alternatives (.or left (exprOf t)) fuel fun u hu => h u (List.mem_cons_of_mem _ hu)
    have enough : (t :: ts).length + fuel + 8 = ts.length + fuel + 8 + 1 := by
      rw [List.length_cons]
      omega
    rw [alternatives_cons, enough, disjunctionRest?]
    show (conjunction? (ts.length + fuel + 8) (disjunctOf t ++ alternatives ts)).bind _ = _
    rw [conjunction?_disjunctOf (h t List.mem_cons_self) ts (ts.length + fuel + 1)]
    exact ih

theorem length_le_alternatives (ts : List Term) : ts.length ≤ (alternatives ts).length := by
  induction ts with
  | nil => exact Nat.zero_le _
  | cons t ts ih =>
    rw [alternatives_cons]
    simp only [List.length_cons, List.length_append]
    omega

/-- The terms that are spelled at all are read as alternatives. -/
theorem read?_anyExpr {terms : List Term} (h : ∀ t ∈ terms, NulFree t) {t : Term} {ts : List Term}
    (hk : terms.filter (fun t => !(termExpr t).isEmpty) = t :: ts) :
    read? (anyExpr terms) = some (ts.foldl (fun left t => .or left (exprOf t)) (exprOf t)) := by
  have spelt : ∀ u ∈ t :: ts, symbolsOf u ≠ [] := by
    intro u hu he
    have kept := (List.mem_filter.1 (hk ▸ hu)).2
    rw [(termExpr_eq_nil u).2 he] at kept
    cases kept
  refine read?_of_spells (spells_anyExpr h hk) ?_
  -- one unit of fuel for each alternative, and what a group in parentheses takes
  obtain ⟨fuel, hf⟩ : ∃ fuel, 6 * (disjunctOf t ++ alternatives ts).length + 6 = ts.length + fuel + 8 + 1 := by
    have least := length_le_alternatives ts
    have some : 1 ≤ (disjunctOf t).length := by
      have hne := spelt t List.mem_cons_self
      unfold disjunctOf
      split
      · simp
      · exact List.length_pos_iff.2 hne
    rw [List.length_append]
    exact ⟨6 * ((disjunctOf t).length + (alternatives ts).length) + 6 - ts.length - 9, by omega⟩
  show disjunction? (6 * (disjunctOf t ++ alternatives ts).length + 6) (disjunctOf t ++ alternatives ts) = _
  rw [hf, disjunction?]
  show (conjunction? (ts.length + fuel + 8) (disjunctOf t ++ alternatives ts)).bind _ = _
  rw [conjunction?_disjunctOf (spelt t List.mem_cons_self) ts (ts.length + fuel + 1)]
  exact disjunctionRest?_alternatives (exprOf t) fuel fun u hu => spelt u (List.mem_cons_of_mem _ hu)

/-! ## Terms close together -/

theorem isPhrase_operandOf (t : Term) : (operandOf t).isPhrase = true := by
  unfold operandOf
  split
  · rfl
  · exact isPhrase_ofText _

theorem takePhrases_cons {s : Symbol} (h : s.isPhrase = true) (rest : List Symbol) :
    takePhrases (s :: rest) = (s.text :: (takePhrases rest).1, (takePhrases rest).2) := by
  cases s <;> first | rfl | cases h

/-- A pair of terms is read as a NEAR group with its number. -/
theorem read?_nearExpr {a b : Term} (ha : NulFree a) (hb : NulFree b) (n : UInt32) :
    read? (nearExpr a b n) = some (.near [(operandOf a).text, (operandOf b).text] n.toNat) := by
  refine read?_of_spells (spells_nearExpr ha hb n) ?_
  have group : nearGroup? [operandOf a, operandOf b, .comma, .bare (decimal n.toNat), .closeParen] =
      some (.near [(operandOf a).text, (operandOf b).text] n.toNat, []) := by
    unfold nearGroup?
    rw [takePhrases_cons (isPhrase_operandOf a), takePhrases_cons (isPhrase_operandOf b)]
    show (readDecimal? (decimal n.toNat)).map _ = _
    rw [readDecimal?_decimal]
    rfl
  have parts : sideBySide? ((nearSymbols a b n).length + 1) (nearSymbols a b n) =
      some ([.near [(operandOf a).text, (operandOf b).text] n.toNat], []) := by
    show sideBySide? 8 (nearSymbols a b n) = _
    rw [nearSymbols, sideBySide?]
    dsimp only
    rw [if_pos rfl, group]
    rfl
  have primary : primary? 45 (nearSymbols a b n) =
      some (.near [(operandOf a).text, (operandOf b).text] n.toNat, []) := by
    refine primary?_of_sideBySide? ?_ parts 44
    rintro x hx rfl
    cases hx
  -- seven symbols give as much fuel
  show disjunction? 48 (nearSymbols a b n) = _
  unfold disjunction?
  rw [conjunction?_of_primary? primary fun _ h => nomatch h]
  rfl

end Index

end Concordance
