/-
Finding a character, and erasing a text everywhere. A character that the text does not hold cuts
the work in two, so what is erased on one side does not depend on the other. A text of equal characters may
therefore be put in anywhere: erasing takes as many of them away again, and it does not matter which.
-/
import Concordance.Text.Find
import Mathlib.Data.List.Basic
import Mathlib.Data.List.Infix
import Mathlib.Tactic

namespace Concordance.Text

variable {needle s a b : List Char} {c x : Char}

/-! ## Cutting at a character -/

section

variable {p : Char → Bool} {before after : List Char}

theorem cutAt?_append {c : Char} (hc : p c = true) (after : List Char) :
    ∀ {before : List Char}, (∀ x ∈ before, p x = false) → cutAt? p (before ++ c :: after) = some (before, after)
  | [], _ => by simp [cutAt?, hc]
  | x :: before, h => by
    have hx : p x = false := h x List.mem_cons_self
    have ih := cutAt?_append hc after fun y hy => h y (List.mem_cons_of_mem x hy)
    rw [List.cons_append, cutAt?, hx, if_neg Bool.false_ne_true, ih]
    rfl

theorem cutAt?_eq_none_iff : ∀ {s : List Char}, cutAt? p s = none ↔ ∀ x ∈ s, p x = false
  | [] => by simp [cutAt?]
  | c :: s => by
    have ih := @cutAt?_eq_none_iff s
    cases hc : p c <;> simp [cutAt?, hc, ih]

theorem eq_of_cutAt? (h : cutAt? p s = some (before, after)) :
    ∃ c, p c = true ∧ s = before ++ c :: after ∧ ∀ x ∈ before, p x = false := by
  induction s generalizing before with
  | nil => simp [cutAt?] at h
  | cons x s ih =>
    rw [cutAt?] at h
    split at h
    · rename_i hx
      cases h
      exact ⟨x, hx, rfl, nofun⟩
    · rename_i hx
      obtain ⟨⟨b, a⟩, hcut, heq⟩ := Option.map_eq_some_iff.1 h
      cases heq
      obtain ⟨c, hc, rfl, free⟩ := ih hcut
      refine ⟨c, hc, rfl, ?_⟩
      intro y hy
      rcases List.mem_cons.1 hy with rfl | hy
      · simpa using hx
      · exact free y hy

end

/-! ## One step of erasing -/

theorem eraseFrom_eq (needle : List Char) : ∀ (skip : Nat) (s : List Char),
    eraseFrom needle skip s = eraseAll needle (s.drop skip)
  | _, [] => by rw [List.drop_nil, eraseAll, eraseFrom, eraseFrom]
  | 0, _ :: _ => rfl
  | skip + 1, _ :: rest => by rw [eraseFrom, List.drop_succ_cons, eraseFrom_eq needle skip rest]

theorem eraseAll_nil (needle : List Char) : eraseAll needle [] = [] := by rw [eraseAll, eraseFrom]

theorem eraseAll_of_isPrefix (hne : needle ≠ []) (h : needle <+: s) :
    eraseAll needle s = eraseAll needle (s.drop needle.length) := by
  cases s with
  | nil => exact absurd (List.prefix_nil.1 h) hne
  | cons c rest =>
    have size : needle.length = needle.length - 1 + 1 :=
      (Nat.sub_add_cancel (List.length_pos_iff.2 hne)).symm
    rw [eraseAll, eraseFrom, if_pos (List.isPrefixOf_iff_prefix.2 h), eraseFrom_eq]
    conv => rhs; rw [size, List.drop_succ_cons]

theorem eraseAll_cons_of_not_isPrefix (h : ¬ needle <+: c :: s) :
    eraseAll needle (c :: s) = c :: eraseAll needle s := by
  rw [eraseAll, eraseFrom, if_neg fun hp => h (List.isPrefixOf_iff_prefix.1 hp)]
  rfl

/-- Where the text to erase does not stand, nothing changes. -/
theorem eraseAll_eq_self : ∀ {s : List Char}, ¬ needle <:+: s → eraseAll needle s = s
  | [], _ => eraseAll_nil needle
  | c :: s, h => by
    rw [eraseAll_cons_of_not_isPrefix fun hp => h hp.isInfix,
      eraseAll_eq_self fun hi => h (hi.trans (List.suffix_cons c s).isInfix)]

/-! ## Cutting -/

/-- A text that does not hold a character and starts a text with it ends before it. -/
theorem prefix_append_cons_iff (hc : c ∉ needle) : needle <+: a ++ c :: b ↔ needle <+: a := by
  constructor
  · intro h
    rcases le_total needle.length a.length with short | long
    · exact List.prefix_of_prefix_length_le h (List.prefix_append a _) short
    · -- then it would hold the character
      have behind : a <+: needle := List.prefix_of_prefix_length_le (List.prefix_append a _) h long
      obtain ⟨t, rfl⟩ := behind
      have rest : t <+: c :: b := (List.prefix_append_right_inj a).1 h
      cases t with
      | nil => rw [List.append_nil]
      | cons y t =>
        obtain ⟨rfl, -⟩ := List.cons_prefix_cons.1 rest
        exact absurd (List.mem_append_right a List.mem_cons_self) hc
  · exact fun h => h.trans (List.prefix_append a _)

theorem suffix_append_cons_iff (hc : c ∉ needle) : needle <:+ a ++ c :: b ↔ needle <:+ b := by
  rw [← List.reverse_prefix, ← List.reverse_prefix, List.reverse_append, List.reverse_cons, List.append_assoc,
    List.singleton_append]
  exact prefix_append_cons_iff (by simpa using hc)

/-- What is erased in front of a character that is never erased does not depend on what is behind it. -/
theorem eraseAll_append_cons (hne : needle ≠ []) (hc : c ∉ needle) (b : List Char) :
    eraseAll needle (a ++ c :: b) = eraseAll needle a ++ c :: eraseAll needle b := by
  induction h : a.length using Nat.strongRecOn generalizing a with
  | ind n ih =>
    cases a with
    | nil =>
      have start : ¬ needle <+: c :: b := fun hp =>
        hne (List.prefix_nil.1 ((prefix_append_cons_iff (a := []) hc).1 hp))
      rw [List.nil_append, eraseAll_cons_of_not_isPrefix start, eraseAll_nil, List.nil_append]
    | cons x a =>
      by_cases hp : needle <+: x :: a
      · have there : needle <+: x :: a ++ c :: b := (prefix_append_cons_iff hc).2 hp
        have shorter : ((x :: a).drop needle.length).length < n := by
          have := List.length_pos_iff.2 hne
          rw [List.length_drop, h]
          rw [List.length_cons] at h
          omega
        rw [eraseAll_of_isPrefix hne there, List.drop_append_of_le_length hp.length_le, ih _ shorter rfl,
          eraseAll_of_isPrefix hne hp]
      · have nowhere : ¬ needle <+: x :: (a ++ c :: b) := fun hp' => hp ((prefix_append_cons_iff hc).1 hp')
        rw [List.cons_append, eraseAll_cons_of_not_isPrefix nowhere, eraseAll_cons_of_not_isPrefix hp,
          ih a.length (by rw [← h, List.length_cons]; omega) rfl, List.cons_append]

theorem eraseAll_cons (hne : needle ≠ []) (hc : c ∉ needle) (b : List Char) :
    eraseAll needle (c :: b) = c :: eraseAll needle b := by
  have cut := eraseAll_append_cons (a := []) hne hc b
  rwa [eraseAll_nil] at cut

/-- A text without characters to erase stays, and cuts the work in two. -/
theorem eraseAll_append_append (hne : needle ≠ []) (b : List Char) :
    ∀ {u a : List Char}, u ≠ [] → (∀ c ∈ u, c ∉ needle) →
      eraseAll needle (a ++ u ++ b) = eraseAll needle a ++ u ++ eraseAll needle b
  | [c], a, _, hu => by
    have cut := eraseAll_append_cons hne (hu c List.mem_cons_self) b (a := a)
    simpa using cut
  | c :: c' :: u, a, _, hu => by
    have ih : eraseAll needle ([] ++ (c' :: u) ++ b) = _ :=
      eraseAll_append_append hne b (List.cons_ne_nil _ _) fun d hd => hu d (List.mem_cons_of_mem _ hd)
    have cut := eraseAll_append_cons hne (hu c List.mem_cons_self) (c' :: u ++ b) (a := a)
    rw [List.nil_append, eraseAll_nil, List.nil_append] at ih
    rw [List.append_assoc, List.cons_append, cut, ih, List.append_assoc]
    rfl

theorem mem_eraseAll (hne : needle ≠ []) (hc : c ∉ needle) (h : c ∈ s) : c ∈ eraseAll needle s := by
  obtain ⟨a, b, rfl⟩ := List.append_of_mem h
  rw [eraseAll_append_cons hne hc]
  exact List.mem_append_right _ List.mem_cons_self

/-! ## Putting in -/

variable {n : Nat}

theorem notMem_replicate {y : Char} (h : y ≠ x) (n : Nat) : y ∉ List.replicate n x :=
  fun hy => h (List.eq_of_mem_replicate hy)

/-- A run of equal characters is erased wherever it is put in. -/
theorem eraseAll_insert (hn : 0 < n) : ∀ a b : List Char,
    eraseAll (List.replicate n x) (a ++ List.replicate n x ++ b) = eraseAll (List.replicate n x) (a ++ b) := by
  have hne : List.replicate n x ≠ [] := List.ne_nil_of_length_pos (by rwa [List.length_replicate])
  intro a b
  induction h : a.length using Nat.strongRecOn generalizing a with
  | ind m ih =>
    by_cases hall : ∀ y ∈ a, y = x
    · -- among its own kind the run may as well stand in front
      have run : a = List.replicate a.length x := List.eq_replicate_iff.2 ⟨rfl, hall⟩
      have front : a ++ List.replicate n x ++ b = List.replicate n x ++ (a ++ b) := by
        rw [run, ← List.append_assoc, List.replicate_append_replicate, List.replicate_append_replicate, Nat.add_comm]
      have gone := eraseAll_of_isPrefix hne (List.prefix_append (List.replicate n x) (a ++ b))
      rw [List.drop_left] at gone
      rw [front, gone]
    · -- another character cuts the run off from what stands before it
      push Not at hall
      obtain ⟨y, hy, hyx⟩ := hall
      obtain ⟨u, v, rfl⟩ := List.append_of_mem hy
      have other := notMem_replicate hyx n
      have shorter : v.length < m := by
        rw [← h, List.length_append, List.length_cons]
        omega
      have behind := ih v.length shorter v rfl
      simp only [List.append_assoc, List.cons_append] at behind ⊢
      rw [eraseAll_append_cons hne other, behind, eraseAll_append_cons hne other]

/-- Erasing runs of a character works on the parts of a text alone, unless such a run lies across. -/
theorem eraseAll_append (hn : 0 < n) (apart : a.getLast? ≠ some x ∨ b.head? ≠ some x) :
    eraseAll (List.replicate n x) (a ++ b) = eraseAll (List.replicate n x) a ++ eraseAll (List.replicate n x) b := by
  have hne : List.replicate n x ≠ [] := List.ne_nil_of_length_pos (by rwa [List.length_replicate])
  rcases apart with last | first
  · rcases List.eq_nil_or_concat a with rfl | ⟨u, y, rfl⟩
    · rw [eraseAll_nil, List.nil_append, List.nil_append]
    · have other : y ∉ List.replicate n x := notMem_replicate (by simpa using last) n
      have alone := eraseAll_append_cons (a := u) hne other []
      rw [eraseAll_nil] at alone
      rw [List.concat_eq_append, List.append_assoc, List.singleton_append, eraseAll_append_cons hne other, alone,
        List.append_assoc, List.singleton_append]
  · cases b with
    | nil => rw [eraseAll_nil, List.append_nil, List.append_nil]
    | cons y v =>
      have other : y ∉ List.replicate n x := notMem_replicate (by simpa using first) n
      rw [eraseAll_append_cons hne other, eraseAll_cons hne other]

end Concordance.Text
