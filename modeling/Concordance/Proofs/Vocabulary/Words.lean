/-
Vocabularies: words of lower-case letters of ASCII, of which none is a part of another. Joined by spaces they
lie in a text only where they stand as words, so looking for characters and looking for words is the same.
-/
import Concordance.Index.Token
import Concordance.Scan.Pattern
import Concordance.Proofs.Text.Pieces

namespace Concordance

open Text

/-- Words of lower-case letters of ASCII. None is a part of another, and no two have the same terms. -/
structure Vocabulary where
  words : Set (List Char)
  nonempty : ∀ w ∈ words, w ≠ []
  lower : ∀ w ∈ words, ∀ c ∈ w, c.isLower = true
  apart : ∀ v ∈ words, ∀ w ∈ words, v <:+: w → v = w
  distinct : ∀ v ∈ words, ∀ w ∈ words, Index.terms v = Index.terms w → v = w

/-! ## Lower-case letters -/

section

variable {c : Char}

/-- What holds of the 26 letters holds of every lower-case letter. -/
theorem of_isLower {P : Char → Prop} (h : ∀ n < 26, P (Char.ofNat (97 + n))) (hc : c.isLower = true) : P c := by
  have range : 97 ≤ c.toNat ∧ c.toNat ≤ 122 := by
    have ends : (decide (97 ≤ c.val) && decide (c.val ≤ 122)) = true := hc
    rw [Bool.and_eq_true, decide_eq_true_eq, decide_eq_true_eq] at ends
    exact ⟨UInt32.le_iff_toNat_le.1 ends.1, UInt32.le_iff_toNat_le.1 ends.2⟩
  have letter := h (c.toNat - 97) (by omega)
  rwa [Nat.add_sub_cancel' range.1, Char.ofNat_toNat] at letter

theorem isBlank_of_isLower (hc : c.isLower = true) : isBlank c = false :=
  of_isLower (P := fun c => isBlank c = false) (by decide +kernel) hc

theorem isTokenChar_of_isLower (hc : c.isLower = true) : Index.isTokenChar c = true :=
  of_isLower (P := fun c => Index.isTokenChar c = true) (by decide +kernel) hc

theorem foldChar_of_isLower (hc : c.isLower = true) : Index.foldChar c = [c] :=
  of_isLower (P := fun c => Index.foldChar c = [c]) (by decide +kernel) hc

theorem foldCase_of_isLower (hc : c.isLower = true) : foldCase c = c :=
  of_isLower (P := fun c => foldCase c = c) (by decide +kernel) hc

theorem ne_of_isLower {x : Char} (hx : x.isLower = false) (hc : c.isLower = true) : c ≠ x := by
  rintro rfl
  rw [hx] at hc
  cases hc

end

namespace Vocabulary

variable (V : Vocabulary)

/-- Are all these words of the vocabulary? -/
def All (ws : List (List Char)) : Prop := ∀ w ∈ ws, w ∈ V.words

variable {V} {ws vs : List (List Char)}

theorem All.isBlank (h : V.All ws) : ∀ w ∈ ws, ∀ c ∈ w, Text.isBlank c = false :=
  fun w hw c hc => isBlank_of_isLower (V.lower w (h w hw) c hc)

theorem All.ne_nil (h : V.All ws) : ∀ w ∈ ws, w ≠ [] := fun w hw => V.nonempty w (h w hw)

theorem All.not_mem {x : Char} (h : V.All ws) (hx : x.isLower = false) : ∀ w ∈ ws, x ∉ w :=
  fun w hw hm => ne_of_isLower hx (V.lower w (h w hw) x hm) rfl

theorem All.words_joinWith (h : V.All ws) : Text.words (joinWith [' '] ws) = ws :=
  Text.words_joinWith h.ne_nil h.isBlank

/-- A text of the vocabulary holds spaces and lower-case letters. -/
theorem All.mem_joinWith (h : V.All ws) {c : Char} (hc : c ∈ joinWith [' '] ws) : c = ' ' ∨ c.isLower = true := by
  rcases mem_of_mem_joinWith hc with hc | ⟨w, hw, hc⟩
  · exact .inl (List.mem_singleton.1 hc)
  · exact .inr (V.lower w (h w hw) c hc)

/-- Words that lie one by one inside words of the vocabulary are those words. -/
theorem All.eq_of_forall₂ (h : V.All ws) (h' : V.All vs) (hf : List.Forall₂ (· <:+: ·) ws vs) : ws = vs := by
  induction hf with
  | nil => rfl
  | @cons w v ws vs hwv hf ih =>
    have head : w = v := V.apart w (h w List.mem_cons_self) v (h' v List.mem_cons_self) hwv
    have tail : ws = vs :=
      ih (fun x hx => h x (List.mem_cons_of_mem _ hx)) fun x hx => h' x (List.mem_cons_of_mem _ hx)
    rw [head, tail]

/-- Joined words lie in joined words exactly if they stand there in sequence. -/
theorem All.joinWith_isInfix_iff (h : V.All ws) (h' : V.All vs) (hne : ws ≠ []) :
    joinWith [' '] ws <:+: joinWith [' '] vs ↔ ws <:+: vs := by
  constructor
  · intro hi
    obtain ⟨xs, us, zs, rfl, hf⟩ :=
      exists_forall₂_isInfix hne h.ne_nil (h.not_mem (by decide)) (h'.not_mem (by decide)) hi
    have inside : V.All us := fun u hu => h' u (by simp [hu])
    rw [h.eq_of_forall₂ inside hf]
    exact ⟨xs, zs, rfl⟩
  · rintro ⟨xs, zs, rfl⟩
    exact joinWith_isInfix hne xs zs

end Vocabulary

end Concordance
