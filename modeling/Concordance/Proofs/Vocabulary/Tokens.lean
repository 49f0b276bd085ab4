/-
A vocabulary in the index: each word is one token, so the terms of a text are those of its words one by one,
and phrases of terms stand where the phrases of words do.
-/
import Concordance.Proofs.Index.Answers
import Concordance.Proofs.Vocabulary.Words

namespace Concordance

open Text Index

/-! ## Tokens of words -/

theorem tokensFrom_run {start : Nat} {rest : List Char} :
    ∀ {w : List Char} {position : Nat} {folded : List Char}, (∀ c ∈ w, c.isLower = true) →
      tokensFrom position (some (start, folded)) (w ++ rest) =
        tokensFrom (position + w.length) (some (start, folded ++ w)) rest
  | [], position, folded, _ => by simp
  | c :: w, position, folded, h => by
    have hc := h c List.mem_cons_self
    have ih : tokensFrom (position + 1) (some (start, folded ++ foldChar c)) (w ++ rest) = _ :=
      tokensFrom_run fun x hx => h x (List.mem_cons_of_mem _ hx)
    rw [List.cons_append, tokensFrom]
    simp only [isTokenChar_of_isLower hc, Bool.true_or, if_true]
    rw [ih, foldChar_of_isLower hc, List.length_cons]
    congr 1
    · omega
    · simp

/-- A word is read as the token of all its letters. -/
theorem tokensFrom_word {w rest : List Char} (hne : w ≠ []) (hw : ∀ c ∈ w, c.isLower = true) (position : Nat) :
    tokensFrom position none (w ++ rest) = tokensFrom (position + w.length) (some (position, w)) rest := by
  obtain ⟨c, w, rfl⟩ := List.exists_cons_of_ne_nil hne
  have hc := hw c List.mem_cons_self
  rw [List.cons_append, tokensFrom]
  simp only [isTokenChar_of_isLower hc, if_true, foldChar_of_isLower hc]
  rw [tokensFrom_run fun x hx => hw x (List.mem_cons_of_mem _ hx), List.length_cons]
  congr 1
  omega

namespace Vocabulary

/-- The term of a word in the index. -/
def termOf (w : List Char) : Word := stem (Word.ofChars w)

variable {V : Vocabulary} {ws vs : List (List Char)}

theorem terms_of_tokensFrom (h : V.All ws) :
    ∀ position, (tokensFrom position none (joinWith [' '] ws)).map (·.term) = ws.map termOf := by
  induction ws with
  | nil => exact fun _ => rfl
  | cons w ws ih =>
    intro position
    have hw := h w List.mem_cons_self
    have rest : V.All ws := fun v hv => h v (List.mem_cons_of_mem _ hv)
    have word : ∀ rest, tokensFrom position none (w ++ rest) = _ :=
      fun rest => tokensFrom_word (V.nonempty w hw) (V.lower w hw) position
    by_cases hws : ws = []
    · subst hws
      have alone := word []
      rw [List.append_nil] at alone
      rw [joinWith_singleton, alone]
      rfl
    · -- the space ends the token of the word
      have space : isTokenChar ' ' = false ∧ isDiacritic ' ' = false := by decide +kernel
      rw [joinWith_cons _ _ hws, List.append_assoc, List.singleton_append, word, tokensFrom]
      simp only [space.1, space.2, Bool.or_self, Bool.false_eq_true, if_false, List.map_cons]
      rw [ih rest]
      rfl

/-- The terms of joined words are the terms of the words. -/
theorem All.terms_joinWith (h : V.All ws) : terms (joinWith [' '] ws) = ws.map termOf := terms_of_tokensFrom h 0

theorem All.terms_word {w : List Char} (hw : w ∈ V.words) : terms w = [termOf w] := by
  have h : V.All [w] := fun v hv => List.mem_singleton.1 hv ▸ hw
  exact h.terms_joinWith

/-- Words with the same term are the same. -/
theorem termOf_injOn : Set.InjOn termOf V.words := by
  intro v hv w hw he
  refine V.distinct v hv w hw ?_
  rw [All.terms_word hv, All.terms_word hw, he]

theorem All.eq_of_map_termOf (h : V.All ws) (h' : V.All vs) (he : ws.map termOf = vs.map termOf) : ws = vs := by
  induction ws generalizing vs with
  | nil => exact (List.map_eq_nil_iff.1 he.symm).symm
  | cons w ws ih =>
    obtain ⟨v, vs, rfl, hv, hvs⟩ := List.map_eq_cons_iff.1 he.symm
    have head := termOf_injOn (h' v List.mem_cons_self) (h w List.mem_cons_self) hv
    have tail := ih (fun x hx => h x (List.mem_cons_of_mem _ hx)) (fun x hx => h' x (List.mem_cons_of_mem _ hx))
      hvs.symm
    rw [head, tail]

/-- Terms stand in sequence where their words do. -/
theorem All.map_termOf_isInfix_iff (h : V.All ws) (h' : V.All vs) :
    ws.map termOf <:+: vs.map termOf ↔ ws <:+: vs := by
  constructor
  · rintro ⟨a, b, he⟩
    obtain ⟨xs, bs, rfl, hxs, -⟩ := List.map_eq_append_iff.1 he.symm
    obtain ⟨as, us, rfl, -, hus⟩ := List.map_eq_append_iff.1 hxs
    have inside : V.All us := fun u hu => h' u (by simp [hu])
    rw [h.eq_of_map_termOf inside hus.symm]
    exact ⟨as, bs, rfl⟩
  · exact fun hi => hi.map termOf

/-- A word's term has its instances at the places of the word. -/
theorem All.mem_instances_termOf (h' : V.All vs) {w : List Char} (hw : w ∈ V.words) {i : Nat} :
    i ∈ instances [termOf w] (vs.map termOf) ↔ vs[i]? = some w := by
  rw [mem_instances, List.length_map]
  constructor
  · rintro ⟨hi, hp⟩
    rw [← List.map_drop, List.drop_eq_getElem_cons hi, List.map_cons, List.cons_prefix_cons] at hp
    have same := termOf_injOn hw (h' vs[i] (List.getElem_mem hi)) hp.1
    rw [List.getElem?_eq_getElem hi, same]
  · intro hi
    obtain ⟨hlt, he⟩ := List.getElem?_eq_some_iff.1 hi
    refine ⟨hlt, ?_⟩
    rw [← List.map_drop, List.drop_eq_getElem_cons hlt, he, List.map_cons]
    exact List.prefix_append [termOf w] _

end Vocabulary

end Concordance
