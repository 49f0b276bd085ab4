/-
How a text falls into tokens: a blank is passed over, a phrase ends at the next quote, and a word ends at the
next blank or quote. Each quote that has a partner is used up together with it, so a quote is left without one
exactly if the text holds an odd number of them.
-/
import Concordance.Proofs.Text.Find
import Concordance.Query.Token

namespace Concordance.Query

open Text

/-! ## One token after another -/

variable {s body w : List Char}

theorem inWord_iff {c : Char} : inWord c = true ↔ isBlank c = false ∧ c ≠ '"' := by
  simp [inWord]

theorem tokenize_nil : tokenize [] = ⟨[], false⟩ := by
  rw [tokenize]

theorem tokenize_blank {c : Char} (hc : isBlank c = true) (s : List Char) : tokenize (c :: s) = tokenize s := by
  rw [tokenize, if_pos hc]

theorem tokenize_phrase (h : '"' ∉ body) (s : List Char) :
    tokenize ('"' :: (body ++ '"' :: s)) = (tokenize s).consPhrase body := by
  have cut : cutAt? (· == '"') (body ++ '"' :: s) = some (body, s) := by
    refine cutAt?_append rfl s fun x hx => beq_false_of_ne ?_
    rintro rfl
    exact h hx
  rw [tokenize, if_neg (by decide), if_pos rfl]
  split
  · rename_i hcut
    rw [cut] at hcut
    cases hcut
    rfl
  · rename_i hcut
    rw [cut] at hcut
    cases hcut

/-- A word ends at the end of the text or at a character that belongs to none. -/
theorem tokenize_word (hne : w ≠ []) (hw : ∀ c ∈ w, inWord c = true) (hs : ∀ c ∈ s.head?, inWord c = false) :
    tokenize (w ++ s) = (tokenize s).cons (Token.classify w) := by
  obtain ⟨c, w, rfl⟩ := List.exists_cons_of_ne_nil hne
  obtain ⟨blank, quote⟩ := inWord_iff.1 (hw c List.mem_cons_self)
  have all : ∀ x ∈ w, inWord x = true := fun x hx => hw x (List.mem_cons_of_mem c hx)
  have stop : s.takeWhile inWord = [] ∧ s.dropWhile inWord = s := by
    cases s with
    | nil => exact ⟨rfl, rfl⟩
    | cons x s =>
      have hx : inWord x = false := hs x rfl
      simp [hx]
  rw [List.cons_append, tokenize, if_neg (by simp [blank]), if_neg quote, List.dropWhile_append_of_pos all,
    List.takeWhile_append_of_pos all, stop.1, stop.2, List.append_nil]

/-! ## Quotes -/

/-- A quote is left without a partner exactly if the number of quotes is odd. -/
theorem unterminatedQuote_tokenize (s : List Char) : (tokenize s).unterminatedQuote = true ↔ Odd (s.count '"') := by
  have free {t : List Char} (h : ∀ x ∈ t, (x == '"') = false) : t.count '"' = 0 :=
    List.count_eq_zero.2 fun hq => by simpa using h '"' hq
  fun_induction tokenize s with
  | case1 => simp
  | case2 c rest hc ih =>
    have other : c ≠ '"' := by
      rintro rfl
      exact absurd hc (by decide)
    rw [List.count_cons_of_ne other]
    exact ih
  | case3 rest body after hcut _ ih =>
    obtain ⟨c, hc, rfl, hbody⟩ := eq_of_cutAt? hcut
    have flag : ((tokenize after).consPhrase body).unterminatedQuote = (tokenize after).unterminatedQuote := by
      unfold Tokens.consPhrase
      split <;> rfl
    rw [eq_of_beq hc, flag, List.count_cons_self, List.count_append, free hbody, List.count_cons_self, zero_add,
      Nat.odd_add_one, Nat.odd_add_one, not_not]
    exact ih
  | case4 rest hcut _ ih =>
    have none : rest.count '"' = 0 := free (cutAt?_eq_none_iff.1 hcut)
    simp [none]
  | case5 c rest _ hc ih =>
    have run : (rest.takeWhile inWord).count '"' = 0 := by
      refine List.count_eq_zero.2 fun hq => ?_
      exact (inWord_iff.1 (List.all_eq_true.1 List.all_takeWhile _ hq)).2 rfl
    have split : rest.count '"' = (rest.dropWhile inWord).count '"' := by
      conv_lhs => rw [← List.takeWhile_append_dropWhile (p := inWord) (l := rest)]
      rw [List.count_append, run, zero_add]
    rw [List.count_cons_of_ne hc, split]
    exact ih

end Concordance.Query
