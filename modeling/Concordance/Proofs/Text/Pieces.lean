/-
Texts that are cut and texts that are joined. The first piece of a text that holds something is the first run of
characters between the cuts. Joining words that do not hold the separator is undone by
cutting at it; a text found inside a joined text lies word by word inside neighbouring words of it. Squeezing
gives a text with single spaces between its words, and leaves exactly such texts as they are.
-/
import Concordance.Text.Blank
import Mathlib.Data.List.Basic
import Mathlib.Data.List.Forall2
import Mathlib.Tactic

namespace Concordance.Text

/-! ## Cutting -/

section

variable {α : Type} (p : α → Bool)

theorem pieces_of_none : ∀ {s : List α}, (∀ c ∈ s, p c = false) → pieces p s = [s]
  | [], _ => rfl
  | c :: s, h => by
    have hc : p c = false := h c List.mem_cons_self
    have hs := pieces_of_none fun x hx => h x (List.mem_cons_of_mem _ hx)
    simp [pieces, hc, hs]

theorem exists_pieces_eq_cons : ∀ s : List α, ∃ first rest, pieces p s = first :: rest
  | [] => ⟨[], [], rfl⟩
  | c :: s => by
    obtain ⟨first, rest, hs⟩ := exists_pieces_eq_cons s
    cases hc : p c with
    | true => exact ⟨[], first :: rest, by simp [pieces, hc, hs]⟩
    | false => exact ⟨c :: first, rest, by simp [pieces, hc, hs]⟩

theorem length_pieces : ∀ s : List α, (pieces p s).length = s.countP p + 1
  | [] => rfl
  | c :: s => by
    have ih := length_pieces s
    obtain ⟨first, rest, hs⟩ := exists_pieces_eq_cons p s
    rw [hs] at ih
    cases hc : p c <;> simp [pieces, hc, hs, ← ih]

/-- The first piece reaches up to the first member that satisfies `p`. -/
theorem head?_pieces : ∀ s : List α, (pieces p s).head? = some (s.takeWhile (!p ·))
  | [] => rfl
  | c :: s => by
    have ih := head?_pieces s
    obtain ⟨first, rest, hs⟩ := exists_pieces_eq_cons p s
    rw [hs, List.head?_cons, Option.some_inj] at ih
    cases hc : p c <;> simp [pieces, hc, hs, ih]

theorem mem_of_mem_pieces {x : α} : ∀ {s w : List α}, w ∈ pieces p s → x ∈ w → x ∈ s ∧ p x = false
  | [], w, hw, hx => by
    rw [List.mem_singleton.1 hw] at hx
    cases hx
  | c :: s, w, hw, hx => by
    obtain ⟨first, rest, hs⟩ := exists_pieces_eq_cons p s
    have ih : ∀ {v : List α}, v ∈ first :: rest → x ∈ v → x ∈ s ∧ p x = false :=
      fun hv => mem_of_mem_pieces (hs ▸ hv)
    cases hc : p c with
    | true =>
      simp only [pieces, hc, if_true, hs] at hw
      rcases List.mem_cons.1 hw with rfl | hw
      · cases hx
      · exact (ih hw hx).imp_left (List.mem_cons_of_mem _)
    | false =>
      simp only [pieces, hc, hs] at hw
      rcases List.mem_cons.1 hw with rfl | hw
      · rcases List.mem_cons.1 hx with rfl | hx
        · exact ⟨List.mem_cons_self, hc⟩
        · exact (ih List.mem_cons_self hx).imp_left (List.mem_cons_of_mem _)
      · exact (ih (List.mem_cons_of_mem _ hw) hx).imp_left (List.mem_cons_of_mem _)

theorem exists_mem_pieces {x : α} (hp : p x = false) : ∀ {s : List α}, x ∈ s → ∃ w ∈ pieces p s, x ∈ w
  | [], h => nomatch h
  | c :: s, h => by
    obtain ⟨first, rest, hs⟩ := exists_pieces_eq_cons p s
    have ih : x ∈ s → ∃ w ∈ first :: rest, x ∈ w := fun hx => hs ▸ exists_mem_pieces hp hx
    cases hc : p c with
    | true =>
      simp only [pieces, hc, if_true, hs]
      rcases List.mem_cons.1 h with rfl | h
      · rw [hp] at hc
        cases hc
      · obtain ⟨w, hw, hx⟩ := ih h
        exact ⟨w, List.mem_cons_of_mem _ hw, hx⟩
    | false =>
      simp only [pieces, hc, hs]
      rcases List.mem_cons.1 h with rfl | h
      · exact ⟨_, List.mem_cons_self, List.mem_cons_self⟩
      · obtain ⟨w, hw, hx⟩ := ih h
        rcases List.mem_cons.1 hw with rfl | hw
        · exact ⟨_, List.mem_cons_self, List.mem_cons_of_mem _ hx⟩
        · exact ⟨w, List.mem_cons_of_mem _ hw, hx⟩

/-- A part without members that satisfy `p` is cut off by the first such member. -/
theorem pieces_append_cons {x : α} (hx : p x = true) (rest : List α) :
    ∀ {s : List α}, (∀ c ∈ s, p c = false) → pieces p (s ++ x :: rest) = s :: pieces p rest
  | [], _ => by simp [pieces, hx]
  | c :: s, h => by
    have hc : p c = false := h c List.mem_cons_self
    have ih := pieces_append_cons hx rest fun y hy => h y (List.mem_cons_of_mem c hy)
    rw [List.cons_append, pieces, hc, ih]
    rfl

/-- Cutting gives back the parts that members satisfying `p` were put in front of. -/
theorem pieces_append_flatMap {x : α} (hx : p x = true) :
    ∀ {parts : List (List α)} {s : List α}, (∀ c ∈ s, p c = false) → (∀ part ∈ parts, ∀ c ∈ part, p c = false) →
      pieces p (s ++ parts.flatMap (x :: ·)) = s :: parts
  | [], s, hs, _ => by
    rw [List.flatMap_nil, List.append_nil]
    exact pieces_of_none p hs
  | part :: parts, s, hs, h => by
    have ih := pieces_append_flatMap hx (h part List.mem_cons_self) fun q hq => h q (List.mem_cons_of_mem part hq)
    rw [List.flatMap_cons, List.cons_append, pieces_append_cons p hx _ hs, ih]

/-- What is added to a text adds its first piece to the last one of the text. -/
theorem exists_pieces_append : ∀ s : List α,
    ∃ init last, ∀ {added first : List α} {rest : List (List α)},
      pieces p added = first :: rest → pieces p (s ++ added) = init ++ (last ++ first) :: rest
  | [] => ⟨[], [], fun h => h⟩
  | c :: s => by
    obtain ⟨init, last, hs⟩ := exists_pieces_append s
    cases hc : p c with
    | true => exact ⟨[] :: init, last, fun h => by simp [pieces, hc, hs h]⟩
    | false =>
      cases init with
      | nil => exact ⟨[], c :: last, fun h => by simp [pieces, hc, hs h]⟩
      | cons first others => exact ⟨(c :: first) :: others, last, fun h => by simp [pieces, hc, hs h]⟩

/-! ### Runs -/

/-- A member that satisfies `p` belongs to no run of others. -/
theorem filter_pieces_cons {x : α} (hx : p x = true) (s : List α) :
    (pieces p (x :: s)).filter (!·.isEmpty) = (pieces p s).filter (!·.isEmpty) := by
  simp [pieces, hx]

/-- A run in front of a member that satisfies `p`, or of nothing, is a piece. -/
theorem filter_pieces_append {run s : List α} (hne : run ≠ []) (hrun : ∀ c ∈ run, p c = false)
    (hs : ∀ c ∈ s.head?, p c = true) :
    (pieces p (run ++ s)).filter (!·.isEmpty) = run :: (pieces p s).filter (!·.isEmpty) := by
  cases s with
  | nil => simp [pieces_of_none p hrun, pieces, hne]
  | cons c s =>
    have hc : p c = true := hs c rfl
    rw [pieces_append_cons p hc s hrun]
    simp [pieces, hc, hne]

/-- What does not start with a member that satisfies `p` starts with a run of others. -/
theorem exists_run {c : α} (hc : p c = false) (s : List α) :
    ∃ run after, c :: s = run ++ after ∧ run ≠ [] ∧ (∀ x ∈ run, p x = false) ∧ ∀ x ∈ after.head?, p x = true := by
  refine ⟨c :: s.takeWhile (!p ·), s.dropWhile (!p ·), ?_, List.cons_ne_nil _ _, ?_, ?_⟩
  · rw [List.cons_append, List.takeWhile_append_dropWhile]
  · intro x hx
    rcases List.mem_cons.1 hx with rfl | hx
    · exact hc
    · simpa using List.all_eq_true.1 List.all_takeWhile x hx
  · intro x hx
    have stop := List.head?_dropWhile_not (!p ·) s
    rw [Option.mem_def.1 hx] at stop
    simpa using stop

variable {p}

/-- Is this the first run of members that satisfy `p`: the whole of it, with no such member before it? -/
def IsFirstRun (p : α → Bool) (s run : List α) : Prop :=
  ∃ before after, s = before ++ (run ++ after) ∧ run ≠ [] ∧ (∀ c ∈ before, p c = false) ∧
    (∀ c ∈ run, p c = true) ∧ ∀ c ∈ after.head?, p c = false

/-- A list has a first run as soon as some member satisfies `p`. -/
theorem exists_isFirstRun {x : α} (hp : p x = true) : ∀ {s : List α}, x ∈ s → ∃ run, IsFirstRun p s run
  | c :: s, hx => by
    cases hc : p c with
    | true =>
      obtain ⟨run, after, split, hne, hrun, stop⟩ := exists_run (!p ·) (by simpa using hc) s
      exact ⟨run, [], after, split, hne, nofun, by simpa using hrun, by simpa using stop⟩
    | false =>
      have behind : x ∈ s := (List.mem_cons.1 hx).resolve_left fun same => by simp [← same, hp] at hc
      obtain ⟨run, before, after, split, hne, free, hrun, stop⟩ := exists_isFirstRun hp behind
      have front : ∀ y ∈ c :: before, p y = false := List.forall_mem_cons.2 ⟨hc, free⟩
      exact ⟨run, c :: before, after, by rw [split, List.cons_append], hne, front, hrun, stop⟩

/-- Of the pieces between the other members, the first that is not empty is the first run. -/
theorem IsFirstRun.find?_pieces {s run : List α} (h : IsFirstRun p s run) :
    (pieces (fun c => !p c) s).find? (!·.isEmpty) = some run := by
  obtain ⟨before, after, rfl, hne, free, hrun, stop⟩ := h
  rw [← List.head?_filter]
  induction before with
  | nil =>
    rw [List.nil_append, filter_pieces_append _ hne (by simpa using hrun) (by simpa using stop), List.head?_cons]
  | cons c before ih =>
    obtain ⟨hc, free⟩ := List.forall_mem_cons.1 free
    rw [List.cons_append, filter_pieces_cons _ (by simpa using hc), ih free]

theorem find?_pieces_eq_some_iff {s run : List α} :
    (pieces (fun c => !p c) s).find? (!·.isEmpty) = some run ↔ IsFirstRun p s run := by
  refine ⟨fun found => ?_, IsFirstRun.find?_pieces⟩
  -- what is found holds a member of the list, so there is a first run, which is found
  have some := List.find?_some found
  obtain ⟨x, hx⟩ := List.exists_mem_of_ne_nil run (by simpa using some)
  obtain ⟨inside, hp⟩ := mem_of_mem_pieces _ (List.mem_of_find?_eq_some found) hx
  obtain ⟨first, hfirst⟩ := exists_isFirstRun (by simpa using hp) inside
  have same := hfirst.find?_pieces
  rw [found, Option.some_inj] at same
  exact same ▸ hfirst

end

theorem mem_of_mem_words {s w : List Char} {x : Char} (hw : w ∈ words s) (hx : x ∈ w) : x ∈ s :=
  (mem_of_mem_pieces isBlank (List.mem_of_mem_filter hw) hx).1

theorem exists_mem_words {s : List Char} {x : Char} (hb : isBlank x = false) (hx : x ∈ s) : ∃ w ∈ words s, x ∈ w := by
  obtain ⟨w, hw, hm⟩ := exists_mem_pieces isBlank hb hx
  exact ⟨w, List.mem_filter.2 ⟨hw, by simpa using List.ne_nil_of_mem hm⟩, hm⟩

section

variable {s w : List Char}

theorem words_blank {c : Char} (hc : isBlank c = true) (s : List Char) : words (c :: s) = words s :=
  filter_pieces_cons isBlank hc s

theorem words_word (hne : w ≠ []) (hw : ∀ c ∈ w, isBlank c = false) (hs : ∀ c ∈ s.head?, isBlank c = true) :
    words (w ++ s) = w :: words s :=
  filter_pieces_append isBlank hne hw hs

/-- Every text is built from its end on by putting a blank or a word in front. -/
@[elab_as_elim]
theorem wordInduction {motive : List Char → Prop} (nil : motive [])
    (blank : ∀ c s, isBlank c = true → motive s → motive (c :: s))
    (word : ∀ w s, w ≠ [] → (∀ c ∈ w, isBlank c = false) → (∀ c ∈ s.head?, isBlank c = true) → motive s →
      motive (w ++ s)) : ∀ s, motive s
  | [] => nil
  | c :: s => by
    cases hc : isBlank c with
    | true => exact blank c s hc (wordInduction nil blank word s)
    | false =>
      obtain ⟨w, after, split, hne, hw, ends⟩ := exists_run isBlank hc s
      have shorter : after.length < s.length + 1 := by
        have total := congrArg List.length split
        have some := List.length_pos_iff.2 hne
        rw [List.length_cons, List.length_append] at total
        omega
      rw [split]
      exact word w after hne hw ends (wordInduction nil blank word after)
termination_by s => s.length

end

theorem trim_sublist (s : List Char) : (trim s).Sublist s := by
  have back : (trimEnd (trimStart s)).Sublist (trimStart s) := by
    rw [trimEnd, ← List.reverse_sublist, List.reverse_reverse]
    exact List.dropWhile_sublist _
  exact back.trans (List.dropWhile_sublist _)

theorem trim_isInfix (s : List Char) : trim s <:+: s := by
  have back : trimEnd (trimStart s) <+: trimStart s := by
    rw [trimEnd, ← List.reverse_suffix, List.reverse_reverse]
    exact List.dropWhile_suffix _
  exact back.isInfix.trans (List.dropWhile_suffix _).isInfix

/-- Trimming takes blanks only. -/
theorem mem_trim {s : List Char} {c : Char} (hc : c ∈ s) (hb : isBlank c = false) : c ∈ trim s := by
  have kept : ∀ {s : List Char}, c ∈ s → c ∈ s.dropWhile isBlank := by
    intro s hc
    rw [← List.takeWhile_append_dropWhile (p := isBlank) (l := s)] at hc
    rcases List.mem_append.1 hc with hc | hc
    · have blank := List.all_eq_true.1 (List.all_takeWhile (p := isBlank) (l := s)) c hc
      rw [hb] at blank
      cases blank
    · exact hc
  exact List.mem_reverse.2 (kept (List.mem_reverse.2 (kept hc)))

theorem trim_of_none {s : List Char} (h : ∀ c ∈ s, isBlank c = false) : trim s = s := by
  have kept : ∀ {s : List Char}, (∀ c ∈ s, isBlank c = false) → s.dropWhile isBlank = s := by
    intro s h
    cases s with
    | nil => rfl
    | cons c s => rw [List.dropWhile_cons, h c List.mem_cons_self, if_neg Bool.false_ne_true]
  rw [trim, trimStart, kept h, trimEnd, kept fun c hc => h c (List.mem_reverse.1 hc), List.reverse_reverse]

/-! ## Joining -/

variable {c : Char}

@[simp] theorem joinWith_singleton (sep y : List Char) : joinWith sep [y] = y := rfl

theorem joinWith_cons (sep y : List Char) {ys : List (List Char)} (hy : ys ≠ []) :
    joinWith sep (y :: ys) = y ++ sep ++ joinWith sep ys := by
  obtain ⟨z, zs, rfl⟩ := List.exists_cons_of_ne_nil hy
  rw [joinWith]
  exact nofun

/-- The letters of joined texts are those of the separator and of the texts. -/
theorem mem_of_mem_joinWith {sep : List Char} :
    ∀ {xs : List (List Char)}, c ∈ joinWith sep xs → c ∈ sep ∨ ∃ x ∈ xs, c ∈ x
  | [x], hc => .inr ⟨x, List.mem_cons_self, hc⟩
  | x :: y :: ys, hc => by
    rw [joinWith_cons sep x (List.cons_ne_nil y ys), List.mem_append, List.mem_append] at hc
    rcases hc with (hc | hc) | hc
    · exact .inr ⟨x, List.mem_cons_self, hc⟩
    · exact .inl hc
    · exact (mem_of_mem_joinWith hc).imp_right fun ⟨z, hz, hm⟩ => ⟨z, List.mem_cons_of_mem x hz, hm⟩

/-- Joined words, those of the first part with the separator behind them. -/
theorem joinWith_append_right (sep : List Char) {ys : List (List Char)} (hy : ys ≠ []) :
    ∀ xs : List (List Char), joinWith sep (xs ++ ys) = xs.flatMap (· ++ sep) ++ joinWith sep ys
  | [] => rfl
  | x :: xs => by
    rw [List.cons_append, joinWith_cons sep x (by simp [hy]), joinWith_append_right sep hy xs]
    simp

/-- Joined words, those of the second part with the separator in front of them. -/
theorem joinWith_append_left (sep : List Char) (zs : List (List Char)) :
    ∀ {ys : List (List Char)}, ys ≠ [] → joinWith sep (ys ++ zs) = joinWith sep ys ++ zs.flatMap (sep ++ ·)
  | [y], _ => by
    induction zs generalizing y with
    | nil => simp
    | cons z zs ih =>
      have hz := ih z (List.cons_ne_nil z [])
      rw [List.singleton_append, joinWith_cons sep y (List.cons_ne_nil z zs), ← List.singleton_append, hz]
      simp
  | y :: y' :: ys, _ => by
    have ih := joinWith_append_left sep zs (List.cons_ne_nil y' ys)
    rw [List.cons_append, joinWith_cons sep y (by simp), ih, joinWith_cons sep y (List.cons_ne_nil y' ys)]
    simp

theorem joinWith_isInfix {ys : List (List Char)} (hy : ys ≠ []) (xs zs : List (List Char)) :
    joinWith [c] ys <:+: joinWith [c] (xs ++ ys ++ zs) := by
  rw [joinWith_append_left _ zs (by simp [hy]), joinWith_append_right _ hy]
  exact ⟨_, _, rfl⟩

/-- Cutting at the separator undoes joining. -/
theorem pieces_joinWith {p : Char → Bool} (hc : p c = true) :
    ∀ {ws : List (List Char)}, ws ≠ [] → (∀ w ∈ ws, ∀ x ∈ w, p x = false) → pieces p (joinWith [c] ws) = ws
  | [w], _, h => pieces_of_none p (h w List.mem_cons_self)
  | w :: w' :: ws, _, h => by
    have hw := h w List.mem_cons_self
    have ih := pieces_joinWith hc (List.cons_ne_nil w' ws) fun x hx => h x (List.mem_cons_of_mem _ hx)
    rw [joinWith_cons [c] w (List.cons_ne_nil w' ws), List.append_assoc, List.singleton_append,
      pieces_append_cons p hc _ hw, ih]

/-- Joining undoes cutting at the separator. -/
theorem joinWith_pieces (c : Char) : ∀ s : List Char, joinWith [c] (pieces (· == c) s) = s
  | [] => rfl
  | x :: s => by
    have ih := joinWith_pieces c s
    obtain ⟨first, rest, hs⟩ := exists_pieces_eq_cons (· == c) s
    rw [hs] at ih
    by_cases hx : x = c
    · subst hx
      rw [pieces, if_pos (beq_self_eq_true x), hs, joinWith_cons [x] [] (List.cons_ne_nil first rest), ih]
      rfl
    · have other : ¬ (x == c) = true := by simpa using hx
      rw [pieces, if_neg other, hs]
      cases rest with
      | nil => simpa using ih
      | cons second rest =>
        rw [joinWith_cons [c] _ (List.cons_ne_nil second rest)] at ih ⊢
        simpa using ih

/-- Joining fewer texts gives fewer letters. -/
theorem joinWith_sublist (sep : List Char) {xs ys : List (List Char)} (h : xs.Sublist ys) :
    (joinWith sep xs).Sublist (joinWith sep ys) := by
  induction h with
  | slnil => exact .slnil
  | @cons xs ys y h ih =>
    by_cases hy : ys = []
    · subst hy
      rw [List.sublist_nil.1 h]
      exact List.nil_sublist _
    · rw [joinWith_cons sep y hy]
      exact ih.trans (List.sublist_append_right _ _)
  | @cons_cons xs ys y h ih =>
    by_cases hx : xs = []
    · subst hx
      rw [joinWith_singleton]
      by_cases hy : ys = []
      · rw [hy, joinWith_singleton]
      · rw [joinWith_cons sep y hy, List.append_assoc]
        exact List.sublist_append_left _ _
    · have hy : ys ≠ [] := fun he => hx (List.sublist_nil.1 (he ▸ h))
      rw [joinWith_cons sep y hx, joinWith_cons sep y hy]
      exact (List.Sublist.refl _).append ih

/-- The words of joined words are those words. -/
theorem words_joinWith {ws : List (List Char)} (hne : ∀ w ∈ ws, w ≠ []) (hb : ∀ w ∈ ws, ∀ x ∈ w, isBlank x = false) :
    words (joinWith [' '] ws) = ws := by
  by_cases h : ws = []
  · subst h
    rfl
  · unfold words
    rw [pieces_joinWith (by decide) h hb, List.filter_eq_self]
    intro w hw
    simpa using hne w hw

/-- Texts with an even number of a character, joined by a separator without it, hold an even number of it. -/
theorem even_count_joinWith {sep : List Char} (hc : c ∉ sep) :
    ∀ {xs : List (List Char)}, (∀ x ∈ xs, Even (x.count c)) → Even ((joinWith sep xs).count c)
  | [], _ => by simp [joinWith]
  | [x], h => h x List.mem_cons_self
  | x :: y :: ys, h => by
    have ih := even_count_joinWith hc fun z hz => h z (List.mem_cons_of_mem x hz)
    rw [joinWith_cons sep x (List.cons_ne_nil y ys), List.count_append, List.count_append,
      List.count_eq_zero_of_not_mem hc, Nat.add_zero]
    exact (h x List.mem_cons_self).add ih

/-! ## Squeezing -/

/-- Does a text hold single spaces between its words and no other blanks? -/
structure IsSqueezed (s : List Char) : Prop where
  blanks : ∀ x ∈ s, isBlank x = true → x = ' '
  single : s.IsChain fun x y => ¬(x = ' ' ∧ y = ' ')
  start : s.head? ≠ some ' '
  final : s.getLast? ≠ some ' '

section

variable {s w : List Char}

theorem squeeze_blank (hc : isBlank c = true) (s : List Char) : squeeze (c :: s) = squeeze s := by
  rw [squeeze, words_blank hc, squeeze]

theorem mem_of_mem_squeeze {x : Char} (hx : x ∈ squeeze s) : x = ' ' ∨ x ∈ s := by
  rcases mem_of_mem_joinWith hx with hx | ⟨w, hw, hx⟩
  · exact .inl (List.mem_singleton.1 hx)
  · exact .inr (mem_of_mem_words hw hx)

theorem words_of_squeeze_eq_nil (h : squeeze s = []) : words s = [] := by
  have nonempty : ∀ w ∈ words s, w ≠ [] := fun w hw => by simpa using (List.mem_filter.1 hw).2
  rw [squeeze] at h
  cases hs : words s with
  | nil => rfl
  | cons w rest =>
    rw [hs] at h nonempty
    refine absurd ?_ (nonempty w List.mem_cons_self)
    by_cases hr : rest = []
    · rwa [hr, joinWith_singleton] at h
    · rw [joinWith_cons _ _ hr, List.append_assoc] at h
      exact (List.append_eq_nil_iff.1 h).1

theorem squeeze_word (hne : w ≠ []) (hw : ∀ x ∈ w, isBlank x = false) (hs : ∀ x ∈ s.head?, isBlank x = true) :
    squeeze (w ++ s) = w ++ if squeeze s = [] then [] else ' ' :: squeeze s := by
  rw [squeeze, words_word hne hw hs]
  split
  · rename_i none
    rw [words_of_squeeze_eq_nil none, joinWith_singleton, List.append_nil]
  · rename_i some
    have rest : words s ≠ [] := fun none => some (by rw [squeeze, none, joinWith])
    rw [joinWith_cons _ _ rest, List.append_assoc, List.singleton_append, squeeze]

theorem isSqueezed_of_none (h : ∀ x ∈ s, isBlank x = false) : IsSqueezed s := by
  have other : ∀ x ∈ s, x ≠ ' ' := by
    rintro x hx rfl
    exact absurd (h _ hx) (by decide)
  refine ⟨fun x hx hb => ?_, ?_, fun start => ?_, fun final => ?_⟩
  · rw [h x hx] at hb
    cases hb
  · refine List.Pairwise.isChain (List.pairwise_of_forall_mem_list fun x hx y _ => ?_)
    exact fun both => other x hx both.1
  · exact other _ (List.mem_of_head? start) rfl
  · exact other _ (List.mem_of_getLast? final) rfl

theorem isSqueezed_squeeze (s : List Char) : IsSqueezed (squeeze s) := by
  induction s using wordInduction with
  | nil => exact isSqueezed_of_none nofun
  | blank c s hc ih => rwa [squeeze_blank hc]
  | word w s hne hw hs ih =>
    have first := isSqueezed_of_none hw
    rw [squeeze_word hne hw hs]
    split
    · rwa [List.append_nil]
    · rename_i some
      refine ⟨fun x hx hb => ?blanks, ?single, ?start, ?final⟩
      case blanks =>
        rcases List.mem_append.1 hx with hx | hx
        · exact first.blanks x hx hb
        · rcases List.mem_cons.1 hx with rfl | hx
          · rfl
          · exact ih.blanks x hx hb
      case single =>
        refine List.isChain_append.2 ⟨first.single, List.isChain_cons.2 ⟨?_, ih.single⟩, ?_⟩
        · rintro y hy ⟨-, rfl⟩
          exact ih.start hy
        · rintro x hx y - ⟨rfl, -⟩
          exact first.final hx
      case start => rw [List.head?_append_of_ne_nil _ hne]; exact first.start
      case final =>
        rw [List.getLast?_append_of_ne_nil _ (List.cons_ne_nil _ _), ← List.singleton_append,
          List.getLast?_append_of_ne_nil _ some]
        exact ih.final

/-- A text with single spaces is its words with spaces between, and one in front if it starts so. -/
theorem eq_squeeze_of_single (blanks : ∀ x ∈ s, isBlank x = true → x = ' ')
    (single : s.IsChain fun x y => ¬(x = ' ' ∧ y = ' ')) (final : s.getLast? ≠ some ' ') :
    s = if s.head? = some ' ' then ' ' :: squeeze s else squeeze s := by
  induction s using wordInduction with
  | nil => rfl
  | blank c s hc ih =>
    obtain rfl := blanks c List.mem_cons_self hc
    obtain ⟨second, single⟩ := List.isChain_cons.1 single
    have next : s.head? ≠ some ' ' := fun hs => second ' ' hs ⟨rfl, rfl⟩
    have some : s ≠ [] := by
      rintro rfl
      exact final rfl
    rw [← List.singleton_append, List.getLast?_append_of_ne_nil _ some] at final
    have rest := ih (fun x hx => blanks x (List.mem_cons_of_mem _ hx)) single final
    rw [if_neg next] at rest
    rw [List.head?_cons, if_pos rfl, squeeze_blank hc, ← rest]
  | word w s hne hw hs ih =>
    have start : (w ++ s).head? ≠ some ' ' := by
      rw [List.head?_append_of_ne_nil _ hne]
      exact (isSqueezed_of_none hw).start
    rw [if_neg start, squeeze_word hne hw hs]
    cases s with
    | nil => rfl
    | cons c s =>
      obtain rfl := blanks c (List.mem_append_right w List.mem_cons_self) (hs c rfl)
      rw [List.getLast?_append_of_ne_nil _ (List.cons_ne_nil _ _)] at final
      have rest := ih (fun x hx => blanks x (List.mem_append_right w hx)) (List.isChain_append.1 single).2.1 final
      rw [List.head?_cons, if_pos rfl] at rest
      have some : squeeze (' ' :: s) ≠ [] := by
        intro none
        rw [rest, none] at final
        exact final rfl
      rw [if_neg some, ← rest]

theorem squeeze_eq_self_iff : squeeze s = s ↔ IsSqueezed s := by
  constructor
  · exact fun h => h ▸ isSqueezed_squeeze s
  · intro h
    have self := eq_squeeze_of_single h.blanks h.single h.final
    rwa [if_neg h.start, eq_comm] at self

/-- Only blanks are lost. -/
theorem count_squeeze (hc : isBlank c = false) (s : List Char) : (squeeze s).count c = s.count c := by
  have other : ' ' ≠ c := by
    rintro rfl
    exact absurd hc (by decide)
  induction s using wordInduction with
  | nil => rfl
  | blank b s hb ih =>
    have hbc : b ≠ c := by
      rintro rfl
      exact absurd hc (by simp [hb])
    rw [squeeze_blank hb, ih, List.count_cons_of_ne hbc]
  | word w s hne hw hs ih =>
    rw [squeeze_word hne hw hs, List.count_append, List.count_append, ← ih]
    split
    · rename_i none
      rw [none]
    · rw [List.count_cons_of_ne other]

end

/-! ## Texts inside joined texts -/

/-- Joined words inside joined words lie each inside a word, and these words are neighbours. -/
theorem exists_forall₂_isInfix {ws vs : List (List Char)} (hws : ws ≠ []) (hne : ∀ w ∈ ws, w ≠ [])
    (hw : ∀ w ∈ ws, c ∉ w) (hv : ∀ v ∈ vs, c ∉ v) (h : joinWith [c] ws <:+: joinWith [c] vs) :
    ∃ xs us zs, vs = xs ++ us ++ zs ∧ List.Forall₂ (· <:+: ·) ws us := by
  let p : Char → Bool := (· == c)
  have free : ∀ {ws : List (List Char)}, (∀ w ∈ ws, c ∉ w) → ∀ w ∈ ws, ∀ x ∈ w, p x = false := by
    intro ws hw w hm x hx
    rw [beq_eq_false_iff_ne]
    rintro rfl
    exact hw w hm hx
  have sep : p c = true := beq_self_eq_true c
  have hvs : vs ≠ [] := by
    rintro rfl
    obtain ⟨w, ws, rfl⟩ := List.exists_cons_of_ne_nil hws
    have inside : w <:+: joinWith [c] (w :: ws) := joinWith_isInfix (List.cons_ne_nil w []) [] ws
    exact hne w List.mem_cons_self (List.eq_nil_of_infix_nil (inside.trans h))
  obtain ⟨a, b, ht⟩ := h
  obtain ⟨initA, lastA, hA⟩ := exists_pieces_append p a
  obtain ⟨initP, lastP, hP⟩ := exists_pieces_append p (joinWith [c] ws)
  obtain ⟨first, rest, hB⟩ := exists_pieces_eq_cons p b
  -- the pieces of the inner text, alone and in place
  have inner : initP ++ [lastP] = ws := by
    have alone := @hP [] [] [] rfl
    rw [List.append_nil, pieces_joinWith sep hws (free hw), List.append_nil] at alone
    exact alone.symm
  have whole : pieces p (a ++ (joinWith [c] ws ++ b)) = vs := by
    rw [← List.append_assoc, ht, pieces_joinWith sep hvs (free hv)]
  cases initP with
  | nil =>
    rw [hA (hP hB)] at whole
    refine ⟨initA, [lastA ++ (lastP ++ first)], rest, by simp [← whole], ?_⟩
    rw [← inner]
    exact .cons ⟨lastA, first, by simp⟩ .nil
  | cons i is =>
    rw [hA (hP hB)] at whole
    refine ⟨initA, (lastA ++ i) :: is ++ [lastP ++ first], rest, by simp [← whole], ?_⟩
    rw [← inner]
    refine .cons ⟨lastA, [], by simp⟩ (List.rel_append (List.forall₂_same.2 fun _ _ => List.infix_rfl) ?_)
    exact .cons ⟨[], first, by simp⟩ .nil

end Concordance.Text
