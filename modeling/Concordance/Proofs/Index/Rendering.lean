/-
The expressions of terms ask for the texts of the terms and for nothing else. Whatever stands in a text,
operators, parentheses, quotes and stars among it, is read back as part of a phrase: a quoted term as the
one phrase of its text, a bare one as its words side by side.
-/
import Concordance.Proofs.Index.Grammar

namespace Concordance

open Text

namespace Term

/-- The phrases that a term asks for: its text if it is quoted, else its words. -/
def phraseTexts (t : Term) : List (List Char) := if t.quoted then [t.text.toList] else words t.text.toList

/-- The phrase that a term asks for in a NEAR group: its text, trimmed if it is bare and no more than a word. -/
def operandText (t : Term) : List Char :=
  if t.quoted = false ∧ (words t.text.toList).length ≤ 1 then trim t.text.toList else t.text.toList

theorem phraseTexts_eq_nil {t : Term} : t.phraseTexts = [] ↔ t.quoted = false ∧ words t.text.toList = [] := by
  unfold phraseTexts
  split <;> simp_all

end Term

namespace Index

/-- All of some phrases. -/
def Expression.allOf (texts : List (List Char)) : Expression := .ofParts (texts.map .phrase)

/-- Some of several expressions. -/
def Expression.anyOf (first : Expression) (rest : List Expression) : Expression := rest.foldl .or first

/-! ## The texts of symbols -/

theorem map_text_symbolsOf (t : Term) : (symbolsOf t).map Symbol.text = t.phraseTexts := by
  unfold symbolsOf Term.phraseTexts
  split
  · rfl
  · rw [List.map_map]
    exact (List.map_congr_left fun w _ => text_ofText w).trans (List.map_id _)

theorem symbolsOf_eq_nil {t : Term} : symbolsOf t = [] ↔ t.phraseTexts = [] := by
  rw [← map_text_symbolsOf, List.map_eq_nil_iff]

theorem text_operandOf_eq (t : Term) : (operandOf t).text = t.operandText := by
  have bare : t.quoted = false ∧ (words t.text.toList).length ≤ 1 ↔
      ¬ (t.quoted || decide (1 < (words t.text.toList).length)) = true := by
    rw [Bool.or_eq_true, decide_eq_true_eq, not_or, Bool.not_eq_true, Nat.not_lt]
  unfold operandOf Term.operandText
  split
  · rename_i whole
    rw [if_neg fun h => bare.1 h whole]
    rfl
  · rename_i trimmed
    rw [if_pos (bare.2 trimmed), text_ofText]

theorem sideBySide_eq_allOf (symbols : List Symbol) : sideBySide symbols = .allOf (symbols.map Symbol.text) := by
  rw [sideBySide, Expression.allOf, List.map_map]
  rfl

theorem exprOf_eq_allOf (t : Term) : exprOf t = .allOf t.phraseTexts := by
  rw [exprOf, sideBySide_eq_allOf, map_text_symbolsOf]

/-! ## Terms that are spelled -/

/-- The terms that have an expression. -/
def spelled (terms : List Term) : List Term := terms.filter fun t => !(termExpr t).isEmpty

theorem termExpr_eq_nil_iff (t : Term) : termExpr t = [] ↔ t.quoted = false ∧ words t.text.toList = [] := by
  rw [termExpr_eq_nil, symbolsOf_eq_nil, Term.phraseTexts_eq_nil]

theorem termExprs_eq (terms : List Term) : termExprs terms = (spelled terms).map termExpr := by
  rw [termExprs, spelled, List.filter_map]
  rfl

theorem spelled_eq_nil {terms : List Term} :
    spelled terms = [] ↔ ∀ t ∈ terms, t.quoted = false ∧ words t.text.toList = [] := by
  rw [spelled, List.filter_eq_nil_iff]
  refine forall_congr' fun t => forall_congr' fun _ => ?_
  rw [← termExpr_eq_nil_iff]
  simp

/-- Terms without an expression have no phrases. -/
theorem flatMap_spelled (terms : List Term) :
    (spelled terms).flatMap Term.phraseTexts = terms.flatMap Term.phraseTexts := by
  induction terms with
  | nil => rfl
  | cons t terms ih =>
    rw [spelled, List.filter_cons]
    split
    · rw [List.flatMap_cons, List.flatMap_cons, ← ih]
      rfl
    · rename_i none
      have empty : t.phraseTexts = [] := by
        rw [← symbolsOf_eq_nil, ← termExpr_eq_nil]
        simpa using none
      rw [List.flatMap_cons, empty, List.nil_append, ← ih]
      rfl

theorem joinWith_eq_nil {separator : List Char} {texts : List (List Char)} (h : ∀ s ∈ texts, s ≠ []) :
    joinWith separator texts = [] ↔ texts = [] := by
  constructor
  · intro hj
    match texts, h, hj with
    | [], _, _ => rfl
    | [s], h, hj => exact absurd hj (h s List.mem_cons_self)
    | s :: s' :: rest, h, hj =>
      rw [joinWith_cons _ _ (List.cons_ne_nil _ _)] at hj
      exact absurd (List.append_eq_nil_iff.1 (List.append_eq_nil_iff.1 hj).1).1 (h s List.mem_cons_self)
  · rintro rfl
    rfl

theorem allExpr_eq_nil {terms : List Term} : allExpr terms = [] ↔ spelled terms = [] := by
  rw [allExpr, termExprs_eq, joinWith_eq_nil, List.map_eq_nil_iff]
  intro e he
  obtain ⟨t, ht, rfl⟩ := List.mem_map.1 he
  have kept := (List.mem_filter.1 ht).2
  simpa using kept

theorem anyExpr_eq_nil {terms : List Term} : anyExpr terms = [] ↔ spelled terms = [] := by
  rw [anyExpr, termExprs_eq, joinWith_eq_nil, List.map_eq_nil_iff, List.map_eq_nil_iff]
  intro e he
  obtain ⟨e', he', rfl⟩ := List.mem_map.1 he
  obtain ⟨t, ht, rfl⟩ := List.mem_map.1 he'
  have kept := (List.mem_filter.1 ht).2
  split
  · simp
  · simpa using kept

/-! ## Reading back -/

section

variable {terms : List Term}

theorem read?_termExpr_eq {t : Term} (h : NulFree t) (hne : termExpr t ≠ []) :
    read? (termExpr t) = some (.allOf t.phraseTexts) := by
  rw [read?_termExpr h fun none => hne ((termExpr_eq_nil t).2 none), ← exprOf_eq_allOf]
  rfl

theorem read?_allExpr_eq (h : ∀ t ∈ terms, NulFree t) (hne : allExpr terms ≠ []) :
    read? (allExpr terms) = some (.allOf ((spelled terms).flatMap Term.phraseTexts)) := by
  have texts : (terms.flatMap symbolsOf).map Symbol.text = terms.flatMap Term.phraseTexts := by
    rw [List.map_flatMap]
    exact List.flatMap_congr fun t _ => map_text_symbolsOf t
  have some : terms.flatMap symbolsOf ≠ [] := by
    intro none
    refine hne (allExpr_eq_nil.2 (spelled_eq_nil.2 fun t ht => ?_))
    rw [← termExpr_eq_nil_iff, termExpr_eq_nil]
    exact List.flatMap_eq_nil_iff.1 none t ht
  rw [read?_allExpr h some, sideBySide_eq_allOf, texts, flatMap_spelled]

theorem read?_anyExpr_eq (h : ∀ t ∈ terms, NulFree t) (hne : anyExpr terms ≠ []) :
    ∃ t ts, spelled terms = t :: ts ∧
      read? (anyExpr terms) = some (.anyOf (.allOf t.phraseTexts) (ts.map fun t => .allOf t.phraseTexts)) := by
  obtain ⟨t, ts, hk⟩ := List.exists_cons_of_ne_nil fun none => hne (anyExpr_eq_nil.2 none)
  refine ⟨t, ts, hk, ?_⟩
  rw [read?_anyExpr h hk, Expression.anyOf, List.foldl_map]
  simp only [exprOf_eq_allOf]

theorem read?_nearExpr_eq {a b : Term} (ha : NulFree a) (hb : NulFree b) (n : UInt32) :
    read? (nearExpr a b n) = some (.near [a.operandText, b.operandText] n.toNat) := by
  rw [read?_nearExpr ha hb, text_operandOf_eq, text_operandOf_eq]

/--
No text of a term without a NUL is read as anything but text. A term is read as its phrases, several terms
as the phrases of those that have an expression, or as alternatives, and a pair as a NEAR group of its two
texts. An expression is empty only if no term is quoted or has a word.
-/
theorem renderings_read_as_texts (h : ∀ t ∈ terms, NulFree t) :
    (∀ t ∈ terms, termExpr t ≠ [] → read? (termExpr t) = some (.allOf t.phraseTexts)) ∧
      (allExpr terms ≠ [] → read? (allExpr terms) = some (.allOf ((spelled terms).flatMap Term.phraseTexts))) ∧
      (anyExpr terms ≠ [] → ∃ t ts, spelled terms = t :: ts ∧
        read? (anyExpr terms) = some (.anyOf (.allOf t.phraseTexts) (ts.map fun t => .allOf t.phraseTexts))) ∧
      (∀ a ∈ terms, ∀ b ∈ terms, ∀ n : UInt32,
        read? (nearExpr a b n) = some (.near [a.operandText, b.operandText] n.toNat)) ∧
      (∀ t ∈ terms, termExpr t = [] ↔ t.quoted = false ∧ words t.text.toList = []) ∧
      (allExpr terms = [] ↔ ∀ t ∈ terms, t.quoted = false ∧ words t.text.toList = []) ∧
      (anyExpr terms = [] ↔ ∀ t ∈ terms, t.quoted = false ∧ words t.text.toList = []) :=
  ⟨fun t ht => read?_termExpr_eq (h t ht), read?_allExpr_eq h, read?_anyExpr_eq h,
    fun a ha b hb n => read?_nearExpr_eq (h a ha) (h b hb) n, fun t _ => termExpr_eq_nil_iff t,
    allExpr_eq_nil.trans spelled_eq_nil, anyExpr_eq_nil.trans spelled_eq_nil⟩

end

/-- Terms of signs and operators, and a term without a word. -/
def signs : List Term := [⟨"x* OR (NEAR", false⟩, ⟨"AND \"y\"", true⟩, ⟨" ", false⟩]

/-- As alternatives they ask for three words of the first term or for the text of the second. -/
theorem read?_anyExpr_signs :
    (∀ t ∈ signs, NulFree t) ∧ anyExpr signs ≠ [] ∧
      read? (anyExpr signs) =
        some (.or (.all [.phrase "x*".toList, .phrase "OR".toList, .phrase "(NEAR".toList])
          (.phrase "AND \"y\"".toList)) := by
  have free : ∀ t ∈ signs, NulFree t := by
    unfold NulFree
    decide +kernel
  have some : anyExpr signs ≠ [] := by decide +kernel
  obtain ⟨t, ts, kept, reads⟩ := (renderings_read_as_texts free).2.2.1 some
  have two : spelled signs = [⟨"x* OR (NEAR", false⟩, ⟨"AND \"y\"", true⟩] := by decide +kernel
  have texts : Term.phraseTexts ⟨"x* OR (NEAR", false⟩ = ["x*".toList, "OR".toList, "(NEAR".toList] := by
    decide +kernel
  rw [two] at kept
  cases kept
  refine ⟨free, some, ?_⟩
  rw [reads, texts]
  rfl

end Index

end Concordance
