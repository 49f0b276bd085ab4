/-
The tokens of a text. Each stands in the text, starts with a token character and ends with one or with a
diacritic, and the next one starts behind it. A text has tokens exactly if it holds a token character.
-/
import Concordance.Index.Token
import Concordance.Text.Blank
import Mathlib.Data.List.Basic
import Mathlib.Tactic

namespace Concordance

open Text

theorem Text.Ranges.exists_mem_of_has {code : Nat} :
    ∀ {runs : Ranges}, runs.has code = true → ∃ run ∈ runs, run.1 ≤ code ∧ code ≤ run.2
  | [], h => by cases h
  | (first, last) :: runs, h => by
    simp only [Ranges.has, Bool.and_eq_true, Bool.or_eq_true, Nat.ble_eq] at h
    obtain ⟨hfirst, hlast | h⟩ := h
    · exact ⟨_, List.mem_cons_self, hfirst, hlast⟩
    · obtain ⟨run, hm, hrun⟩ := Ranges.exists_mem_of_has h
      exact ⟨run, List.mem_cons_of_mem _ hm, hrun⟩

/-- What each code point of the runs satisfies, one after the other, is true of all code points that they hold. -/
theorem Text.Ranges.of_has {runs : Ranges} {q : Nat → Bool} {code : Nat}
    (each : runs.all (fun run => (List.range (run.2 + 1 - run.1)).all fun k => q (run.1 + k)) = true)
    (h : runs.has code = true) : q code = true := by
  obtain ⟨run, hrun, hfirst, hlast⟩ := Ranges.exists_mem_of_has h
  have here := List.all_eq_true.1 (List.all_eq_true.1 each run hrun) (code - run.1) (List.mem_range.2 (by omega))
  rwa [Nat.add_sub_cancel' hfirst] at here

namespace Index

/-! ## Characters -/

/-- Blanks separate tokens. -/
theorem isTokenChar_of_isBlank {c : Char} (h : isBlank c = true) : isTokenChar c = false := by
  have separates : separatorRanges.has c.toNat = true := Ranges.of_has (by decide +kernel) h
  rw [isTokenChar, separates]
  rfl

theorem isBlank_of_isTokenChar {c : Char} (h : isTokenChar c = true) : isBlank c = false := by
  by_contra blank
  rw [isTokenChar_of_isBlank (by simpa using blank)] at h
  cases h

/-- Can a character be the last one of a token? -/
def EndsToken (c : Char) : Prop := isTokenChar c = true ∨ isDiacritic c = true

theorem ne_of_isTokenChar {c x : Char} (hx : isTokenChar x = false) (h : isTokenChar c = true) : c ≠ x := by
  rintro rfl
  rw [h] at hx
  cases hx

/-! ## Where tokens stand -/

/-- Does a token stand in a text? -/
structure Token.StandsIn (t : Token) (text : List Char) : Prop where
  nonempty : t.start < t.stop
  inside : t.stop ≤ text.length
  first : ∃ c, text[t.start]? = some c ∧ isTokenChar c = true
  last : ∃ c, text[t.stop - 1]? = some c ∧ EndsToken c

/-- The token being read behind a text, if there is one, starts with a token character and may end here. -/
def Reading (read : List Char) (run : Option (Nat × List Char)) : Prop :=
  ∀ start folded, run = some (start, folded) → ∀ rest, (Token.ofRun start read.length folded).StandsIn (read ++ rest)

theorem reading_none (read : List Char) : Reading read none := fun _ _ h => nomatch h

theorem getElem?_append_singleton (read rest : List Char) (c : Char) :
    (read ++ [c] ++ rest)[read.length]? = some c := by
  simp

/-- A token character starts a token. -/
theorem reading_start (read : List Char) {c : Char} (hc : isTokenChar c = true) :
    Reading (read ++ [c]) (some (read.length, foldChar c)) := by
  rintro start folded h rest
  cases h
  have here := getElem?_append_singleton read rest c
  refine ⟨?_, ?_, ⟨c, here, hc⟩, c, ?_, .inl hc⟩
  · show read.length < (read ++ [c]).length
    simp
  · simp [Token.ofRun]
  · show (read ++ [c] ++ rest)[(read ++ [c]).length - 1]? = some c
    rw [List.length_append, List.length_singleton, Nat.add_sub_cancel, here]

/-- A character that may end a token goes on with one. -/
theorem Reading.extend {read : List Char} {start : Nat} {folded folded' : List Char} {c : Char}
    (h : Reading read (some (start, folded))) (hc : EndsToken c) :
    Reading (read ++ [c]) (some (start, folded')) := by
  rintro _ _ he rest
  cases he
  have before := h _ _ rfl ([c] ++ rest)
  rw [← List.append_assoc] at before
  refine ⟨?_, ?_, before.first, c, ?_, hc⟩
  · show start < (read ++ [c]).length
    have := before.nonempty
    simp only [Token.ofRun] at this
    rw [List.length_append, List.length_singleton]
    omega
  · simp [Token.ofRun]
  · show (read ++ [c] ++ rest)[(read ++ [c]).length - 1]? = some c
    rw [List.length_append, List.length_singleton, Nat.add_sub_cancel, getElem?_append_singleton]

/-- Where the token being read started, or else where the next one may start. -/
def nextStart (read : List Char) (run : Option (Nat × List Char)) : Nat := (run.map (·.1)).getD read.length

theorem tokensFrom_standIn {rest : List Char} : ∀ {read : List Char} {run : Option (Nat × List Char)},
    Reading read run →
      (∀ t ∈ tokensFrom read.length run rest, t.StandsIn (read ++ rest) ∧ nextStart read run ≤ t.start) ∧
        (tokensFrom read.length run rest).Pairwise fun t u => t.stop ≤ u.start := by
  induction rest with
  | nil =>
    intro read run h
    cases run with
    | none => exact ⟨List.forall_mem_nil _, .nil⟩
    | some run =>
      refine ⟨fun t ht => ?_, List.pairwise_singleton ..⟩
      rw [List.mem_singleton.1 ht]
      exact ⟨h _ _ rfl [], Nat.le_refl _⟩
  | cons c rest ih =>
    intro read run h
    -- what is read next is read behind one more character
    have step : ∀ {run' : Option (Nat × List Char)}, Reading (read ++ [c]) run' →
        (∀ t ∈ tokensFrom (read.length + 1) run' rest,
          t.StandsIn (read ++ c :: rest) ∧ nextStart (read ++ [c]) run' ≤ t.start) ∧
          (tokensFrom (read.length + 1) run' rest).Pairwise fun t u => t.stop ≤ u.start := by
      intro run' h'
      have later := ih h'
      rw [List.length_append, List.length_singleton, List.append_assoc, List.singleton_append] at later
      exact later
    have further : nextStart (read ++ [c]) none = read.length + 1 := by simp [nextStart]
    cases run with
    | none =>
      rw [tokensFrom]
      split
      · rename_i hc
        exact step (reading_start read hc)
      · obtain ⟨standing, apart⟩ := step (reading_none _)
        refine ⟨fun t ht => ⟨(standing t ht).1, ?_⟩, apart⟩
        have := (standing t ht).2
        rw [further] at this
        exact (Nat.le_succ _).trans this
    | some run =>
      obtain ⟨start, folded⟩ := run
      rw [tokensFrom]
      split
      · rename_i hc
        exact step (h.extend (Bool.or_eq_true_iff.1 hc))
      · have here := h _ _ rfl (c :: rest)
        obtain ⟨standing, apart⟩ := step (reading_none _)
        rw [further] at standing
        constructor
        · intro t ht
          rcases List.mem_cons.1 ht with rfl | ht
          · exact ⟨here, Nat.le_refl _⟩
          · have between := here.nonempty.le.trans ((Nat.le_succ _).trans (standing t ht).2)
            exact ⟨(standing t ht).1, between⟩
        · exact List.pairwise_cons.2 ⟨fun t ht => (Nat.le_succ _).trans (standing t ht).2, apart⟩

theorem standsIn_of_mem_tokens {text : List Char} {t : Token} (h : t ∈ tokens text) : t.StandsIn text :=
  ((tokensFrom_standIn (reading_none [])).1 t h).1

/-- A token ends before the next one starts. -/
theorem pairwise_tokens (text : List Char) : (tokens text).Pairwise fun t u => t.stop ≤ u.start :=
  (tokensFrom_standIn (reading_none [])).2

/-! ## Texts without tokens -/

theorem tokensFrom_run_ne_nil {text : List Char} :
    ∀ {position : Nat} {run : Nat × List Char}, tokensFrom position (some run) text ≠ [] := by
  induction text with
  | nil => exact fun h => nomatch h
  | cons c text ih =>
    intro position run
    rw [tokensFrom]
    split
    · exact ih
    · exact List.cons_ne_nil _ _

theorem tokensFrom_eq_nil {text : List Char} :
    ∀ {position : Nat}, tokensFrom position none text = [] ↔ ∀ c ∈ text, isTokenChar c = false := by
  induction text with
  | nil => simp [tokensFrom]
  | cons c text ih =>
    intro position
    rw [tokensFrom, List.forall_mem_cons]
    cases hc : isTokenChar c with
    | true => simp [tokensFrom_run_ne_nil]
    | false => simp [ih]

theorem terms_eq_nil {text : List Char} : terms text = [] ↔ ∀ c ∈ text, isTokenChar c = false := by
  rw [terms, List.map_eq_nil_iff]
  exact tokensFrom_eq_nil

end Index

end Concordance
