/-
How terms are spelled as match expressions, and that the spelling is read back. Whatever a text holds but a
NUL, its words come back as the symbols of phrases and never as operators or parentheses.
-/
import Concordance.Index.Reader
import Concordance.Proofs.Text.Decimal
import Concordance.Proofs.Text.Pieces

namespace Concordance

open Text

namespace Index

/-! ## Single symbols -/

theorem symbols?_nil : symbols? [] = some [] := by rw [symbols?]

theorem symbols?_space (rest : List Char) : symbols? (' ' :: rest) = symbols? rest := by
  rw [symbols?, if_neg (by decide), if_pos (by decide)]

theorem symbols?_openParen (rest : List Char) :
    symbols? ('(' :: rest) = (symbols? rest).map (.openParen :: ·) := by
  rw [symbols?, if_neg (by decide), if_neg (by decide), if_pos rfl]

theorem symbols?_closeParen (rest : List Char) :
    symbols? (')' :: rest) = (symbols? rest).map (.closeParen :: ·) := by
  rw [symbols?, if_neg (by decide), if_neg (by decide), if_neg (by decide), if_pos rfl]

theorem symbols?_comma (rest : List Char) : symbols? (',' :: rest) = (symbols? rest).map (.comma :: ·) := by
  rw [symbols?, if_neg (by decide), if_neg (by decide), if_neg (by decide), if_neg (by decide), if_pos rfl]

theorem symbols?_quote {s body rest : List Char} (h : quotedBody? s = some (body, rest)) :
    symbols? ('"' :: s) = (symbols? rest).map (.string body :: ·) := by
  rw [symbols?, if_neg (by decide), if_neg (by decide), if_neg (by decide), if_neg (by decide),
    if_neg (by decide), if_pos rfl]
  split
  · rename_i heq
    rw [h] at heq
    cases heq
    rfl
  · rename_i heq
    rw [h] at heq
    cases heq

/-- Does a text, where it goes on, end the bare word or the string in front of it? -/
def Breaks (rest : List Char) : Prop := ∀ c ∈ rest.head?, isBareChar c = false ∧ c ≠ '"'

theorem breaks_nil : Breaks [] := fun _ h => nomatch h

theorem breaks_cons {c : Char} (h : isBareChar c = false ∧ c ≠ '"') (rest : List Char) : Breaks (c :: rest) := by
  intro x hx
  cases hx
  exact h

theorem symbols?_bareWord {w rest : List Char} (hne : w ≠ []) (hw : ∀ c ∈ w, isBareChar c = true)
    (hr : Breaks rest) : symbols? (w ++ rest) = (symbols? rest).map (.ofWord w :: ·) := by
  obtain ⟨c, cs, rfl⟩ := List.exists_cons_of_ne_nil hne
  have hc := hw c List.mem_cons_self
  have other : ∀ x, isBareChar x = false → c ≠ x := by
    rintro x hx rfl
    rw [hc] at hx
    cases hx
  have tail : ∀ x ∈ cs, isBareChar x = true := fun x hx => hw x (List.mem_cons_of_mem _ hx)
  have cut : (cs ++ rest).takeWhile isBareChar = cs ∧ (cs ++ rest).dropWhile isBareChar = rest := by
    rw [List.takeWhile_append_of_pos tail, List.dropWhile_append_of_pos tail]
    cases rest with
    | nil => simp
    | cons x xs => simp [(hr x rfl).1]
  rw [List.cons_append, symbols?]
  simp only [other _ (by decide : isBareChar '\x00' = false), other _ (by decide : isBareChar ' ' = false),
    other _ (by decide : isBareChar '\t' = false), other _ (by decide : isBareChar '\n' = false),
    other _ (by decide : isBareChar '\r' = false), other _ (by decide : isBareChar '(' = false),
    other _ (by decide : isBareChar ')' = false), other _ (by decide : isBareChar ',' = false),
    other _ (by decide : isBareChar '"' = false), hc, decide_false, Bool.or_self, if_false, if_true,
    Bool.false_eq_true, cut]

/-- The text between quotes is read back, whatever it holds but a NUL. -/
theorem quotedBody?_escaped {rest : List Char} (hr : Breaks rest) :
    ∀ {s : List Char}, '\x00' ∉ s →
      quotedBody? (s.flatMap (fun c => if c = '"' then ['"', '"'] else [c]) ++ '"' :: rest) = some (s, rest)
  | [], _ => by
    cases rest with
    | nil => rfl
    | cons c rest =>
      have hc := (hr c rfl).2
      rw [List.flatMap_nil, List.nil_append, quotedBody?]
      exact fun _ he => hc (List.cons.inj he).1
  | c :: s, h => by
    have hs : '\x00' ∉ s := fun hm => h (List.mem_cons_of_mem _ hm)
    have hc : c ≠ '\x00' := fun he => h (he ▸ List.mem_cons_self)
    have ih := quotedBody?_escaped hr hs
    rw [List.flatMap_cons, List.append_assoc]
    by_cases hq : c = '"'
    · subst hq
      rw [if_pos rfl, List.cons_append, List.singleton_append, quotedBody?, ih]
      rfl
    · rw [if_neg hq, List.singleton_append, quotedBody?, ih]
      · rfl
      · exact fun _ he _ => hq he
      · exact hq
      · exact hc

/-! ## Spellings -/

/-- Is an expression read as these symbols, wherever it stands in front of a text that breaks words? -/
def Spells (e : List Char) (symbols : List Symbol) : Prop :=
  ∀ rest, Breaks rest → symbols? (e ++ rest) = (symbols? rest).map (symbols ++ ·)

theorem Spells.read {e : List Char} {symbols : List Symbol} (h : Spells e symbols) : symbols? e = some symbols := by
  have he := h [] breaks_nil
  rw [List.append_nil, symbols?_nil, Option.map_some, List.append_nil] at he
  exact he

theorem spells_nil : Spells [] [] := by
  intro rest _
  rw [List.nil_append]
  exact Option.map_id'.symm

theorem Spells.append_space {e e' : List Char} {a b : List Symbol} (h : Spells e a) (h' : Spells e' b) :
    Spells (e ++ [' '] ++ e') (a ++ b) := by
  intro rest hr
  rw [List.append_assoc, List.append_assoc, List.singleton_append, h _ (breaks_cons (by decide) _),
    symbols?_space, h' rest hr, Option.map_map]
  congr 1
  funext symbols
  exact (List.append_assoc ..).symm

/-- Expressions in parentheses are read as their symbols in parentheses. -/
theorem Spells.parens {e : List Char} {a : List Symbol} (h : Spells e a) :
    Spells (['('] ++ e ++ [')']) ([.openParen] ++ a ++ [.closeParen]) := by
  intro rest _
  rw [List.append_assoc, List.append_assoc, List.singleton_append, List.singleton_append, symbols?_openParen,
    h _ (breaks_cons (by decide) _), symbols?_closeParen, Option.map_map, Option.map_map]
  congr 1
  funext symbols
  simp

theorem spells_joinWith {es : List (List Char)} {symbols : List (List Symbol)} (h : List.Forall₂ Spells es symbols) :
    Spells (joinWith [' '] es) symbols.flatten := by
  induction h with
  | nil => exact spells_nil
  | @cons e a es symbols he h ih =>
    cases h with
    | nil => simpa using he
    | cons he' h' =>
      rw [joinWith_cons [' '] e (List.cons_ne_nil _ _), List.flatten_cons]
      exact he.append_space ih

/-! ## Words -/

/-- The symbol that a word is spelled as. -/
def Symbol.ofText (s : List Char) : Symbol := if isBareWord s then .bare s else .string s

theorem spells_quoted {s : List Char} (h : '\x00' ∉ s) : Spells (quoted s) [.string s] := by
  intro rest hr
  rw [quoted, List.append_assoc, List.append_assoc, List.singleton_append, List.singleton_append,
    symbols?_quote (quotedBody?_escaped hr h)]
  rfl

theorem ofWord_of_not_operator {s : List Char} (h : operators.contains s = false) : Symbol.ofWord s = .bare s := by
  simp only [operators, List.contains_eq_mem, decide_eq_false_iff_not, List.mem_cons, List.not_mem_nil, or_false,
    not_or] at h
  rw [Symbol.ofWord, if_neg h.1, if_neg h.2.1, if_neg h.2.2.1]

theorem spells_word {s : List Char} (h : '\x00' ∉ s) : Spells (word s) [.ofText s] := by
  unfold word Symbol.ofText
  split
  · rename_i hb
    simp only [isBareWord, Bool.and_eq_true, Bool.not_eq_true', List.isEmpty_eq_false_iff, List.all_eq_true] at hb
    intro rest hr
    rw [symbols?_bareWord hb.1.1 hb.1.2 hr, ofWord_of_not_operator hb.2]
    rfl
  · exact spells_quoted h

theorem spells_or : Spells ['O', 'R'] [.or] := by
  have bare : ['O', 'R'].all isBareChar = true := by decide
  intro rest hr
  rw [symbols?_bareWord (List.cons_ne_nil _ _) (List.all_eq_true.1 bare) hr]
  rfl

theorem spells_near : Spells ['N', 'E', 'A', 'R'] [.bare ['N', 'E', 'A', 'R']] := by
  have bare : ['N', 'E', 'A', 'R'].all isBareChar = true := by decide
  intro rest hr
  rw [symbols?_bareWord (List.cons_ne_nil _ _) (List.all_eq_true.1 bare) hr]
  rfl

theorem word_ne_nil (s : List Char) : word s ≠ [] := by
  unfold word
  split
  · rintro rfl
    contradiction
  · simp [quoted]

/-! ## Terms -/

/-- The symbols that a term is spelled as. -/
def symbolsOf (t : Term) : List Symbol :=
  if t.quoted then [.string t.text.toList] else (words t.text.toList).map Symbol.ofText

/-- Is there no NUL in the text of a term? -/
def NulFree (t : Term) : Prop := '\x00' ∉ t.text.toList

theorem spells_termExpr {t : Term} (h : NulFree t) : Spells (termExpr t) (symbolsOf t) := by
  unfold termExpr symbolsOf
  split
  · exact spells_quoted h
  · have singles : List.Forall₂ Spells ((words t.text.toList).map word)
        ((words t.text.toList).map fun w => [Symbol.ofText w]) := by
      rw [List.forall₂_map_left_iff, List.forall₂_map_right_iff, List.forall₂_same]
      exact fun w hw => spells_word fun hx => h (mem_of_mem_words hw hx)
    have joined := spells_joinWith singles
    rwa [← List.flatMap_def, ← List.map_eq_flatMap] at joined

theorem termExpr_eq_nil (t : Term) : termExpr t = [] ↔ symbolsOf t = [] := by
  unfold termExpr symbolsOf
  split
  · simp [quoted]
  · rcases words t.text.toList with _ | ⟨w, ws⟩
    · simp [joinWith]
    · rw [List.map_cons]
      simp only [List.map_cons, reduceCtorEq, iff_false]
      cases ws with
      | nil => exact word_ne_nil w
      | cons w' ws =>
        rw [List.map_cons, joinWith_cons _ _ (List.cons_ne_nil _ _)]
        simp

/-- All terms are spelled as their symbols side by side. -/
theorem spells_allExpr : ∀ {terms : List Term}, (∀ t ∈ terms, NulFree t) →
    Spells (allExpr terms) (terms.flatMap symbolsOf) := by
  intro terms h
  have kept : terms.flatMap symbolsOf =
      ((terms.filter fun t => !(termExpr t).isEmpty).map symbolsOf).flatten := by
    rw [← List.flatMap_def]
    induction terms with
    | nil => rfl
    | cons t terms ih =>
      rw [List.flatMap_cons, ih fun u hu => h u (List.mem_cons_of_mem _ hu), List.filter_cons]
      split
      · rfl
      · rename_i he
        have none : symbolsOf t = [] := (termExpr_eq_nil t).1 (by simpa using he)
        rw [none, List.nil_append]
  have each : List.Forall₂ Spells (termExprs terms)
      ((terms.filter fun t => !(termExpr t).isEmpty).map symbolsOf) := by
    rw [termExprs, List.filter_map, List.forall₂_map_left_iff, List.forall₂_map_right_iff]
    exact List.forall₂_same.2 fun t ht => spells_termExpr (h t (List.mem_of_mem_filter ht))
  rw [kept]
  exact spells_joinWith each

/-! ## Some of several terms -/

/-- The symbols of a term among alternatives: in parentheses if the term is spelled with a space. -/
def disjunctOf (t : Term) : List Symbol :=
  if (termExpr t).contains ' ' then [.openParen] ++ symbolsOf t ++ [.closeParen] else symbolsOf t

theorem spells_joinWith_or {e : List Char} {a : List Symbol} {es : List (List Char)} {rest : List (List Symbol)}
    (he : Spells e a) (h : List.Forall₂ Spells es rest) :
    Spells (joinWith [' ', 'O', 'R', ' '] (e :: es)) (a ++ rest.flatMap ([.or] ++ ·)) := by
  induction h generalizing e a with
  | nil => simpa using he
  | @cons e' a' es rest he' h ih =>
    have both := (he.append_space spells_or).append_space (ih he')
    rw [joinWith_cons _ e (List.cons_ne_nil _ _), List.flatMap_cons]
    simpa using both

/-- The terms that are spelled at all stand with `OR` between them. -/
theorem spells_anyExpr {terms : List Term} (h : ∀ t ∈ terms, NulFree t) {t : Term} {ts : List Term}
    (hk : terms.filter (fun t => !(termExpr t).isEmpty) = t :: ts) :
    Spells (anyExpr terms) (disjunctOf t ++ ts.flatMap ([.or] ++ disjunctOf ·)) := by
  have free : ∀ u ∈ t :: ts, NulFree u := fun u hu => h u (List.mem_of_mem_filter (hk ▸ hu))
  have alone : ∀ u, NulFree u →
      Spells (if (termExpr u).contains ' ' then ['('] ++ termExpr u ++ [')'] else termExpr u) (disjunctOf u) := by
    intro u hu
    unfold disjunctOf
    split
    · exact (spells_termExpr hu).parens
    · exact spells_termExpr hu
  have exprs : termExprs terms = termExpr t :: ts.map termExpr := by
    rw [termExprs, List.filter_map]
    exact congrArg (List.map termExpr) hk
  have rest : List.Forall₂ Spells
      ((ts.map termExpr).map fun e => if e.contains ' ' then ['('] ++ e ++ [')'] else e) (ts.map disjunctOf) := by
    rw [List.map_map, List.forall₂_map_left_iff, List.forall₂_map_right_iff]
    exact List.forall₂_same.2 fun u hu => alone u (free u (List.mem_cons_of_mem _ hu))
  have joined := spells_joinWith_or (alone t (free t List.mem_cons_self)) rest
  rw [List.flatMap_map] at joined
  rw [anyExpr, exprs, List.map_cons]
  exact joined

/-! ## Terms close together -/

/-- The symbol of an operand of NEAR. -/
def operandOf (t : Term) : Symbol :=
  if t.quoted || 1 < (words t.text.toList).length then .string t.text.toList else .ofText (trim t.text.toList)

theorem spells_operandExpr {t : Term} (h : NulFree t) : Spells (operandExpr t) [operandOf t] := by
  unfold operandExpr operandOf
  split
  · exact spells_quoted h
  · exact spells_word fun hx => h ((trim_sublist _).subset hx)

theorem isBareWord_decimal (n : Nat) : isBareWord (decimal n) = true := by
  have bare : ∀ c ∈ decimal n, isBareChar c = true := by
    intro c hc
    simp [isBareChar, Char.isAlphanum, isDigit_of_mem_decimal hc]
  have plain : decimal n ∉ operators := by
    intro hm
    obtain ⟨c, hc, hd⟩ : ∃ c ∈ decimal n, c.isDigit = false := by
      simp only [operators, List.mem_cons, List.not_mem_nil, or_false] at hm
      rcases hm with he | he | he | he <;> rw [he] <;> exact ⟨_, List.mem_cons_self, by decide⟩
    rw [isDigit_of_mem_decimal hc] at hd
    cases hd
  simp [isBareWord, decimal_ne_nil, plain, List.all_eq_true.2 bare]

/-- The symbols of a NEAR group. -/
def nearSymbols (a b : Term) (n : UInt32) : List Symbol :=
  [.bare ['N', 'E', 'A', 'R'], .openParen, operandOf a, operandOf b, .comma, .bare (decimal n.toNat), .closeParen]

/-- Two terms with at most some tokens between them are spelled as a NEAR group with that number. -/
theorem spells_nearExpr {a b : Term} (ha : NulFree a) (hb : NulFree b) (n : UInt32) :
    Spells (nearExpr a b n) (nearSymbols a b n) := by
  intro rest _
  have number : Spells (decimal n.toNat) [.bare (decimal n.toNat)] := by
    have spelt := spells_word (s := decimal n.toNat) fun hx => by
      have digit := isDigit_of_mem_decimal hx
      cases digit
    rwa [word, Symbol.ofText, if_pos (isBareWord_decimal _), if_pos (isBareWord_decimal _)] at spelt
  have operands := (spells_operandExpr ha).append_space (spells_operandExpr hb)
  have spelt : nearExpr a b n ++ rest =
      ['N', 'E', 'A', 'R'] ++ ('(' :: ((operandExpr a ++ [' '] ++ operandExpr b) ++
        (',' :: ' ' :: (decimal n.toNat ++ (')' :: rest))))) := by
    simp [nearExpr]
  rw [spelt, spells_near _ (breaks_cons (by decide) _), symbols?_openParen, operands _ (breaks_cons (by decide) _),
    symbols?_comma, symbols?_space, number _ (breaks_cons (by decide) _), symbols?_closeParen]
  simp only [Option.map_map]
  rfl

end Index

end Concordance
