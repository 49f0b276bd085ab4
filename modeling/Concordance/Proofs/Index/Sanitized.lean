/-
What is left of an expression that cannot be read. It has one form: letters, numbers and underscores, quotes that
pair up, and single spaces in between; and an expression of that form is left as it is. Expressions written for terms
have quotes that pair up, whatever the terms hold, so none of their quotes is lost: each run of letters stands where
it stood, between quotes if it stood between quotes.
-/
import Concordance.Index.Expression
import Concordance.Proofs.Index.Tokens
import Concordance.Proofs.Text.Decimal
import Concordance.Proofs.Text.Pieces
import Mathlib.Algebra.Group.Nat.Even

namespace Concordance.Index

open Text

/-! ## The form -/

/-- Is an expression in the form that is left? -/
structure IsNormal (e : List Char) : Prop where
  letters : ∀ c ∈ e, isAlphanumeric c = true ∨ c = '_' ∨ c = '"' ∨ c = ' '
  single : e.IsChain fun c d => ¬(c = ' ' ∧ d = ' ')
  start : e.head? ≠ some ' '
  final : e.getLast? ≠ some ' '
  paired : Even (e.count '"')

/-- Letters and numbers are no blanks. -/
theorem isAlphanumeric_of_isBlank {c : Char} (h : isBlank c = true) : isAlphanumeric c = false := by
  have other := Ranges.of_has (q := fun code => !alphanumericRanges.has code) (by decide +kernel) h
  rwa [Bool.not_eq_true'] at other

/-- Is a character a letter, a number or an underscore? -/
def isRunChar (c : Char) : Bool := isAlphanumeric c || c = '_'

theorem isBlank_of_isRunChar {c : Char} (h : isRunChar c = true) : isBlank c = false := by
  by_contra blank
  have other := isAlphanumeric_of_isBlank (by simpa using blank)
  rw [isRunChar, other, Bool.false_or, decide_eq_true_eq] at h
  exact absurd (h ▸ blank) (by decide)

/-! ## From an expression to what is left -/

/-- The character that is written for a character. -/
def plain (c : Char) : Char := if isPlainChar c then c else ' '

/-- The character that is written for a character where quotes do not pair up. -/
def unquoted (c : Char) : Char := if c = '"' then ' ' else c

variable {c : Char} {e : List Char}

theorem isPlainChar_iff :
    isPlainChar c = true ↔ isAlphanumeric c = true ∨ c = '_' ∨ c = '"' ∨ isBlank c = true := by
  simp only [isPlainChar, Bool.or_eq_true, decide_eq_true_eq, or_assoc]

theorem isPlainChar_plain (c : Char) : isPlainChar (plain c) = true := by
  unfold plain
  split
  · assumption
  · decide

theorem plain_of_isRunChar (h : isRunChar c = true) : plain c = c := by
  have : isPlainChar c = true := by
    rw [isPlainChar, show (isAlphanumeric c || decide (c = '_')) = true from h, Bool.true_or, Bool.true_or]
  rw [plain, if_pos this]

theorem plain_eq_quote_iff : plain c = '"' ↔ c = '"' := by
  unfold plain
  split
  · rfl
  · rename_i dropped
    constructor
    · exact fun h => absurd h (by decide)
    · rintro rfl
      exact absurd (by decide) dropped

theorem count_map_plain (e : List Char) : (e.map plain).count '"' = e.count '"' := by
  rw [List.count_eq_countP, List.countP_map, List.count_eq_countP]
  refine List.countP_congr fun c _ => ?_
  simp only [Function.comp_apply, beq_iff_eq, plain_eq_quote_iff]

theorem sanitize_of_even (h : Even (e.count '"')) : sanitize e = squeeze (e.map plain) := by
  show squeeze (if (e.map plain).count '"' % 2 = 1 then (e.map plain).map unquoted else e.map plain) = _
  rw [count_map_plain, if_neg (by rw [Nat.even_iff.1 h]; decide)]

theorem sanitize_of_not_even (h : ¬Even (e.count '"')) : sanitize e = squeeze ((e.map plain).map unquoted) := by
  show squeeze (if (e.map plain).count '"' % 2 = 1 then (e.map plain).map unquoted else e.map plain) = _
  rw [count_map_plain, if_pos (Nat.not_even_iff.1 h)]

theorem count_sanitize_of_even (h : Even (e.count '"')) : (sanitize e).count '"' = e.count '"' := by
  rw [sanitize_of_even h, count_squeeze (by decide), count_map_plain]

theorem count_sanitize_of_not_even (h : ¬Even (e.count '"')) : (sanitize e).count '"' = 0 := by
  have none : '"' ∉ (e.map plain).map unquoted := by
    intro hq
    obtain ⟨c, -, hc⟩ := List.mem_map.1 hq
    unfold unquoted at hc
    split at hc
    · exact absurd hc (by decide)
    · contradiction
  rw [sanitize_of_not_even h, count_squeeze (by decide), List.count_eq_zero_of_not_mem none]

/-- Nothing but plain characters is squeezed. -/
theorem exists_sanitize_eq (e : List Char) : ∃ s, sanitize e = squeeze s ∧ ∀ c ∈ s, isPlainChar c = true := by
  have mapped : ∀ c ∈ e.map plain, isPlainChar c = true := by
    intro c hc
    obtain ⟨d, -, rfl⟩ := List.mem_map.1 hc
    exact isPlainChar_plain d
  by_cases h : Even (e.count '"')
  · exact ⟨_, sanitize_of_even h, mapped⟩
  · refine ⟨_, sanitize_of_not_even h, fun c hc => ?_⟩
    obtain ⟨d, hd, rfl⟩ := List.mem_map.1 hc
    unfold unquoted
    split
    · decide
    · exact mapped d hd

/-- What is left is in the form. -/
theorem isNormal_sanitize (e : List Char) : IsNormal (sanitize e) := by
  obtain ⟨s, hs, allPlain⟩ := exists_sanitize_eq e
  have squeezed := isSqueezed_squeeze s
  rw [← hs] at squeezed
  refine ⟨fun c hc => ?letters, squeezed.single, squeezed.start, squeezed.final, ?paired⟩
  case letters =>
    rcases Bool.eq_false_or_eq_true (isBlank c) with blank | other
    · exact .inr (.inr (.inr (squeezed.blanks c hc blank)))
    · have kept : isPlainChar c = true := by
        rcases mem_of_mem_squeeze (hs ▸ hc) with rfl | hc
        · decide
        · exact allPlain c hc
      rcases isPlainChar_iff.1 kept with letter | underscore | quote | blank
      · exact .inl letter
      · exact .inr (.inl underscore)
      · exact .inr (.inr (.inl quote))
      · exact Bool.noConfusion (blank.symm.trans other)
  case paired =>
    by_cases h : Even (e.count '"')
    · rwa [count_sanitize_of_even h]
    · rw [count_sanitize_of_not_even h]
      exact Even.zero

/-- An expression in the form is left as it is. -/
theorem sanitize_of_isNormal (h : IsNormal e) : sanitize e = e := by
  have same : e.map plain = e := by
    refine (List.map_congr_left fun c hc => ?_).trans (List.map_id e)
    have kept : isPlainChar c = true := by
      rcases h.letters c hc with letter | underscore | quote | rfl
      · exact isPlainChar_iff.2 (.inl letter)
      · exact isPlainChar_iff.2 (.inr (.inl underscore))
      · exact isPlainChar_iff.2 (.inr (.inr (.inl quote)))
      · decide
    rw [plain, if_pos kept, id_eq]
  have blanks : ∀ c ∈ e, isBlank c = true → c = ' ' := by
    intro c hc blank
    rcases h.letters c hc with letter | rfl | rfl | rfl
    · exact absurd (isAlphanumeric_of_isBlank blank) (by simp [letter])
    · exact absurd blank (by decide)
    · exact absurd blank (by decide)
    · rfl
  rw [sanitize_of_even h.paired, same]
  exact squeeze_eq_self_iff.2 ⟨blanks, h.single, h.start, h.final⟩

/-! ## Runs -/

/-- A run of letters, numbers and underscores, and whether it stands between quotes. -/
structure Run where
  text : List Char
  quoted : Bool
deriving DecidableEq, Repr, Inhabited

/-- The run that ends here, if there is one. -/
def endRun (quoted : Bool) (run : List Char) : List Run := if run.isEmpty then [] else [⟨run, quoted⟩]

/-- The runs from here on, of which the first goes on with `run`. Each quote leads in between quotes or out. -/
def runsFrom (quoted : Bool) (run : List Char) : List Char → List Run
  | [] => endRun quoted run
  | c :: rest =>
    if isRunChar c then runsFrom quoted (run ++ [c]) rest
    else endRun quoted run ++ runsFrom (if c = '"' then !quoted else quoted) [] rest

/-- The runs of an expression from left to right. -/
def runs (e : List Char) : List Run := runsFrom false [] e

theorem runsFrom_map_plain (quoted : Bool) (run e : List Char) :
    runsFrom quoted run (e.map plain) = runsFrom quoted run e := by
  induction e generalizing quoted run with
  | nil => rfl
  | cons c e ih =>
    rw [List.map_cons, runsFrom, runsFrom]
    by_cases hc : isRunChar c = true
    · rw [plain_of_isRunChar hc, if_pos hc, if_pos hc, ih]
    · have apart : ¬isRunChar (plain c) = true := by
        unfold plain
        split
        · exact hc
        · decide
      rw [if_neg apart, if_neg hc, ih]
      simp only [plain_eq_quote_iff]

/-- Behind the same characters, what gives the same runs from any state on still does. -/
theorem runsFrom_append_congr {s t : List Char} (h : ∀ quoted run, runsFrom quoted run s = runsFrom quoted run t)
    (w : List Char) (quoted : Bool) (run : List Char) :
    runsFrom quoted run (w ++ s) = runsFrom quoted run (w ++ t) := by
  induction w generalizing quoted run with
  | nil => exact h quoted run
  | cons c w ih =>
    rw [List.cons_append, List.cons_append, runsFrom, runsFrom, ih, ih]

/-- A blank ends a run. -/
theorem runsFrom_blank (hc : isBlank c = true) (quoted : Bool) (run s : List Char) :
    runsFrom quoted run (c :: s) = endRun quoted run ++ runsFrom quoted [] s := by
  have apart : ¬isRunChar c = true := fun letter => Bool.noConfusion (hc.symm.trans (isBlank_of_isRunChar letter))
  have other : c ≠ '"' := by
    rintro rfl
    exact absurd hc (by decide)
  rw [runsFrom, if_neg apart, if_neg other]

theorem runsFrom_squeeze (quoted : Bool) (s : List Char) : runsFrom quoted [] (squeeze s) = runsFrom quoted [] s := by
  induction s using wordInduction generalizing quoted with
  | nil => rfl
  | blank c s hc ih =>
    rw [squeeze_blank hc, ih, runsFrom_blank hc]
    rfl
  | word w s hne hw hs ih =>
    rw [squeeze_word hne hw hs]
    refine runsFrom_append_congr (fun quoted run => ?_) w quoted []
    cases s with
    | nil => rfl
    | cons c s =>
      -- the word ends at a blank, so both sides go on without a run
      have hc : isBlank c = true := hs c rfl
      have later : runsFrom quoted [] (squeeze (c :: s)) = runsFrom quoted [] s := by
        rw [ih, runsFrom_blank hc]
        rfl
      rw [runsFrom_blank hc, ← later]
      split
      · rename_i none
        rw [none]
        exact (List.append_nil _).symm
      · rw [runsFrom_blank (by decide)]

/-- Does an expression keep its quotes, and with them its runs as they stand? -/
structure KeepsQuotes (e : List Char) : Prop where
  quotes : (sanitize e).count '"' = e.count '"'
  runs : runs (sanitize e) = runs e

theorem keepsQuotes_iff : KeepsQuotes e ↔ Even (e.count '"') := by
  constructor
  · intro h
    rw [← h.quotes]
    exact (isNormal_sanitize e).paired
  · intro h
    refine ⟨count_sanitize_of_even h, ?_⟩
    rw [sanitize_of_even h, Index.runs, runsFrom_squeeze, runsFrom_map_plain, Index.runs]

example : runs (sanitize ['"', 'a', '*', 'b', '"', ':', 'c']) = [⟨['a'], true⟩, ⟨['b'], true⟩, ⟨['c'], false⟩] := by
  decide +kernel

/-! ## Expressions of terms -/

theorem count_quoted (s : List Char) : (quoted s).count '"' = 2 * s.count '"' + 2 := by
  have doubled : (s.flatMap fun c => if c = '"' then ['"', '"'] else [c]).count '"' = 2 * s.count '"' := by
    induction s with
    | nil => rfl
    | cons c s ih =>
      rw [List.flatMap_cons, List.count_append, ih]
      by_cases hc : c = '"'
      · rw [if_pos hc, hc, List.count_cons_self]
        simp
        omega
      · rw [if_neg hc, List.count_cons_of_ne hc, List.count_cons_of_ne hc]
        simp
  rw [quoted, List.count_append, List.count_append, doubled]
  simp
  omega

theorem even_count_quoted (s : List Char) : Even ((quoted s).count '"') := by
  rw [count_quoted]
  exact (even_two_mul _).add even_two

theorem even_count_word (s : List Char) : Even ((word s).count '"') := by
  unfold word
  split
  · rename_i bare
    have none : '"' ∉ s := by
      intro hq
      simp only [isBareWord, Bool.and_eq_true, List.all_eq_true] at bare
      exact absurd (bare.1.2 _ hq) (by decide)
    rw [List.count_eq_zero_of_not_mem none]
    exact Even.zero
  · exact even_count_quoted s

theorem even_count_termExpr (t : Term) : Even ((termExpr t).count '"') := by
  unfold termExpr
  split
  · exact even_count_quoted _
  · exact even_count_joinWith (by decide) (List.forall_mem_map.2 fun w _ => even_count_word w)

theorem even_count_of_mem_termExprs {terms : List Term} (h : e ∈ termExprs terms) : Even (e.count '"') := by
  obtain ⟨t, -, rfl⟩ := List.mem_map.1 (List.mem_of_mem_filter h)
  exact even_count_termExpr t

theorem even_count_allExpr (terms : List Term) : Even ((allExpr terms).count '"') :=
  even_count_joinWith (by decide) fun _ => even_count_of_mem_termExprs

theorem even_count_anyExpr (terms : List Term) : Even ((anyExpr terms).count '"') := by
  refine even_count_joinWith (by decide) (List.forall_mem_map.2 fun e he => ?_)
  have paired := even_count_of_mem_termExprs he
  split
  · simpa [List.count_append] using paired
  · exact paired

theorem even_count_operandExpr (t : Term) : Even ((operandExpr t).count '"') := by
  unfold operandExpr
  split
  · exact even_count_quoted _
  · exact even_count_word _

theorem even_count_nearExpr (first second : Term) (maxWords : UInt32) :
    Even ((nearExpr first second maxWords).count '"') := by
  have digits : (decimal maxWords.toNat).count '"' = 0 := by
    refine List.count_eq_zero_of_not_mem fun hq => ?_
    exact absurd (isDigit_of_mem_decimal hq) (by decide)
  have operands := (even_count_operandExpr first).add (even_count_operandExpr second)
  simpa [nearExpr, List.count_append, digits] using operands

/--
What is left of an expression has one form, and an expression is left as it is exactly if it has that form, as what is
left once has. An expression written for terms keeps all its quotes, and with them its runs as they stand.
-/
theorem sanitize_normal :
    (∀ e, IsNormal (sanitize e) ∧ sanitize (sanitize e) = sanitize e) ∧
    (∀ e, sanitize e = e ↔ IsNormal e) ∧
    (∀ e, KeepsQuotes e ↔ Even (e.count '"')) ∧
    (∀ t, KeepsQuotes (termExpr t)) ∧
    (∀ terms, KeepsQuotes (allExpr terms)) ∧
    (∀ terms, KeepsQuotes (anyExpr terms)) ∧
    ∀ first second maxWords, KeepsQuotes (nearExpr first second maxWords) := by
  refine ⟨fun e => ?_, fun e => ?_, fun e => keepsQuotes_iff, fun t => ?_, fun terms => ?_, fun terms => ?_,
    fun first second maxWords => ?_⟩
  · exact ⟨isNormal_sanitize e, sanitize_of_isNormal (isNormal_sanitize e)⟩
  · exact ⟨fun same => same ▸ isNormal_sanitize e, sanitize_of_isNormal⟩
  · exact keepsQuotes_iff.2 (even_count_termExpr t)
  · exact keepsQuotes_iff.2 (even_count_allExpr terms)
  · exact keepsQuotes_iff.2 (even_count_anyExpr terms)
  · exact keepsQuotes_iff.2 (even_count_nearExpr first second maxWords)

end Concordance.Index
