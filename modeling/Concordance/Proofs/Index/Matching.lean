/-
Which rows a query matches. An instance of a phrase is a place where its terms stand in a row, so a phrase
matches the rows whose terms hold its own in sequence; a pair close together matches where two instances are.
-/
import Concordance.Index.Match
import Mathlib.Data.List.Basic
import Mathlib.Tactic

namespace Concordance.Index

/-! ## Instances -/

theorem mem_instancesFrom {p : Phrase} {i : Nat} :
    ∀ {text : List Word} {position : Nat},
      i ∈ instancesFrom p position text ↔ ∃ k, i = position + k ∧ k < text.length ∧ p <+: text.drop k
  | [], position => by simp [instancesFrom]
  | w :: rest, position => by
    have ih : i ∈ instancesFrom p (position + 1) rest ↔ _ := mem_instancesFrom
    -- an instance in the rest lies one place further on
    have later : i ∈ instancesFrom p (position + 1) rest ↔
        ∃ k, i = position + (k + 1) ∧ k + 1 < (w :: rest).length ∧ p <+: (w :: rest).drop (k + 1) := by
      rw [ih]
      refine exists_congr fun k => and_congr (by omega) (and_congr ?_ Iff.rfl)
      rw [List.length_cons]
      omega
    unfold instancesFrom
    split
    · rename_i here
      rw [List.isPrefixOf_iff_prefix] at here
      rw [List.mem_cons, later]
      constructor
      · rintro (rfl | ⟨k, hk⟩)
        · exact ⟨0, rfl, by simp, here⟩
        · exact ⟨k + 1, hk⟩
      · rintro ⟨_ | k, hk⟩
        · exact .inl hk.1
        · exact .inr ⟨k, hk⟩
    · rename_i here
      rw [List.isPrefixOf_iff_prefix] at here
      rw [later]
      constructor
      · rintro ⟨k, hk⟩
        exact ⟨k + 1, hk⟩
      · rintro ⟨_ | k, hk⟩
        · exact absurd hk.2.2 here
        · exact ⟨k, hk⟩

theorem mem_instances {p : Phrase} {text : List Word} {i : Nat} :
    i ∈ instances p text ↔ i < text.length ∧ p <+: text.drop i := by
  rw [instances, mem_instancesFrom]
  constructor
  · rintro ⟨k, hk, h⟩
    rw [Nat.zero_add] at hk
    exact hk ▸ h
  · exact fun h => ⟨i, (Nat.zero_add i).symm, h⟩

/-- A phrase has an instance where its terms stand in sequence. -/
theorem exists_instance_iff {p : Phrase} (hp : p ≠ []) {text : List Word} :
    (∃ i, i ∈ instances p text) ↔ p <:+: text := by
  constructor
  · rintro ⟨i, hi⟩
    exact (mem_instances.1 hi).2.isInfix.trans (List.drop_suffix i text).isInfix
  · rintro ⟨a, b, rfl⟩
    refine ⟨a.length, mem_instances.2 ⟨?_, ?_⟩⟩
    · have := List.length_pos_iff.2 hp
      simp only [List.length_append]
      omega
    · rw [List.append_assoc, List.drop_left]
      exact List.prefix_append p b

/-! ## Queries -/

namespace Query

/-- Does a text match a query? -/
def Holds (q : Query) (text : List Word) : Prop := (q.match? text).isSome = true

theorem not_holds_nothing (text : List Word) : ¬ nothing.Holds text := by
  simp [Holds, match?]

theorem holds_or {left right : Query} {text : List Word} :
    (or left right).Holds text ↔ left.Holds text ∨ right.Holds text := by
  unfold Holds
  rw [match?]
  cases left.match? text <;> cases right.match? text <;> simp

theorem isSome_matchAll? {text : List Word} :
    ∀ {parts : List Query}, (matchAll? parts text).isSome = true ↔ ∀ q ∈ parts, q.Holds text
  | [] => by simp [matchAll?]
  | part :: rest => by
    have ih : (matchAll? rest text).isSome = true ↔ _ := isSome_matchAll?
    rw [matchAll?, List.forall_mem_cons, ← ih, Holds]
    cases part.match? text <;> cases matchAll? rest text <;> simp

theorem holds_all {parts : List Query} {text : List Word} :
    (all parts).Holds text ↔ ∀ q ∈ parts, q.Holds text := by
  rw [← isSome_matchAll?, Holds, match?]

/-! ## Groups -/

theorem holds_group_singleton {p : Phrase} (hp : p ≠ []) {distance : Nat} {text : List Word} :
    (group [p] distance).Holds text ↔ p <:+: text := by
  rw [← exists_instance_iff hp, Holds, match?, matchGroup?]
  simp only [List.map_cons, List.map_nil, List.length_singleton, if_true, List.map_map]
  have places : ((fun c : Chosen => c.place) ∘ Chosen.mk p.length) = id := rfl
  rw [places, List.map_id]
  cases h : instances p text with
  | nil => simp
  | cons i rest => simp

/-- Two chosen instances are near if each ends at most the distance before the other starts. -/
theorem areNear_pair {distance : Nat} {c c' : Chosen} :
    areNear distance [c, c'] = true ↔
      c'.place ≤ c.place + c.size + distance ∧ c.place ≤ c'.place + c'.size + distance := by
  simp only [areNear, List.map_cons, List.map_nil, List.foldl_cons, List.foldl_nil, List.all_cons, List.all_nil,
    Bool.and_true, Bool.and_eq_true, decide_eq_true_eq]
  omega

/-- The chosen instances of one phrase that are near some of another. -/
def nearOf (distance : Nat) (own other : List Chosen) : List Chosen :=
  own.filter fun c => (choices [other]).any fun others => areNear distance (c :: others)

theorem nearOf_ne_nil {distance : Nat} {own other : List Chosen} :
    nearOf distance own other ≠ [] ↔ ∃ c ∈ own, ∃ c' ∈ other, areNear distance [c, c'] = true := by
  unfold nearOf
  rw [ne_eq, List.filter_eq_nil_iff]
  push Not
  refine exists_congr fun c => and_congr Iff.rfl ?_
  simp [choices, List.any_flatMap]

theorem nearInstances_pair (distance : Nat) (own other : List Chosen) :
    nearInstances distance [own, other] =
      [(nearOf distance own other).map (·.place), (nearOf distance other own).map (·.place)] := rfl

theorem holds_group_pair {p q : Phrase} {distance : Nat} {text : List Word} :
    (group [p, q] distance).Holds text ↔
      ∃ i ∈ instances p text, ∃ j ∈ instances q text,
        j ≤ i + p.length + distance ∧ i ≤ j + q.length + distance := by
  let own := (instances p text).map (Chosen.mk p.length)
  let other := (instances q text).map (Chosen.mk q.length)
  have both : (group [p, q] distance).Holds text ↔
      nearOf distance own other ≠ [] ∧ nearOf distance other own ≠ [] := by
    rw [Holds, match?, matchGroup?]
    show (if (nearInstances distance [own, other]).all (!·.isEmpty) then _ else none).isSome = true ↔ _
    rw [nearInstances_pair]
    cases h : nearOf distance own other <;> cases h' : nearOf distance other own <;> simp
  have near : (∃ c ∈ own, ∃ c' ∈ other, areNear distance [c, c'] = true) ↔
      ∃ i ∈ instances p text, ∃ j ∈ instances q text,
        j ≤ i + p.length + distance ∧ i ≤ j + q.length + distance := by
    constructor
    · rintro ⟨c, hc, c', hc', h⟩
      obtain ⟨i, hi, rfl⟩ := List.mem_map.1 hc
      obtain ⟨j, hj, rfl⟩ := List.mem_map.1 hc'
      exact ⟨i, hi, j, hj, areNear_pair.1 h⟩
    · rintro ⟨i, hi, j, hj, h⟩
      exact ⟨_, List.mem_map_of_mem hi, _, List.mem_map_of_mem hj, areNear_pair.2 h⟩
  rw [both, nearOf_ne_nil, nearOf_ne_nil, near]
  -- whichever phrase comes first, the same two instances are near
  refine and_iff_left_of_imp ?_
  rintro ⟨i, hi, j, hj, h⟩
  exact ⟨_, List.mem_map_of_mem hj, _, List.mem_map_of_mem hi, areNear_pair.2 ⟨h.2, h.1⟩⟩

/-! ## Texts without terms -/

theorem not_holds_group_nil {phrases : List Phrase} (hp : phrases ≠ []) (distance : Nat) :
    ¬ (group phrases distance).Holds [] := by
  have fails : ∀ kept : List (List Nat), [] ∈ kept →
      ¬ (if kept.all (!·.isEmpty) then some kept else none).isSome = true := by
    intro kept none
    rw [if_neg fun all => absurd (List.all_eq_true.1 all [] none) (by decide)]
    exact Bool.false_ne_true
  obtain ⟨p, rest, rfl⟩ := List.exists_cons_of_ne_nil hp
  rw [Holds, match?, matchGroup?]
  -- the first phrase has no instance
  refine fails _ ?_
  split
  · exact List.mem_cons_self
  · rw [List.map_cons, nearInstances, List.mapIdx_cons]
    exact List.mem_cons_self

theorem not_holds_ofTexts_nil (texts : List (List Char)) (distance : Nat) : ¬ (ofTexts texts distance).Holds [] := by
  unfold ofTexts
  split
  · exact not_holds_nothing []
  · rename_i some
    exact not_holds_group_nil some distance

theorem Holds.and_left {left right : Query} {text : List Word} (h : (and left right).Holds text) : left.Holds text := by
  unfold Holds at h ⊢
  rw [match?] at h
  cases hl : left.match? text with
  | none =>
    rw [hl] at h
    cases h
  | some a => rfl

theorem Holds.not_left {left right : Query} {text : List Word} (h : (not left right).Holds text) : left.Holds text := by
  unfold Holds at h ⊢
  rw [match?] at h
  cases hl : left.match? text with
  | none =>
    rw [hl] at h
    cases h
  | some a => rfl

mutual

/-- No expression matches a text without terms. -/
theorem not_holds_ofExpression_nil : ∀ e : Expression, ¬ (ofExpression e).Holds []
  | .phrase text => by
    rw [ofExpression]
    exact not_holds_ofTexts_nil _ _
  | .near texts distance => by
    rw [ofExpression]
    exact not_holds_ofTexts_nil _ _
  | .all parts => by
    rw [ofExpression]
    split
    · exact not_holds_nothing []
    · rename_i kept some
      intro h
      obtain ⟨q, hq⟩ := List.exists_mem_of_ne_nil _ some
      exact not_holds_ofExpressions_nil parts q (List.mem_of_mem_filter hq) (holds_all.1 h q hq)
  | .and left right => by
    rw [ofExpression]
    exact fun h => not_holds_ofExpression_nil left h.and_left
  | .or left right => by
    rw [ofExpression, holds_or]
    exact not_or_intro (not_holds_ofExpression_nil left) (not_holds_ofExpression_nil right)
  | .not left right => by
    rw [ofExpression]
    exact fun h => not_holds_ofExpression_nil left h.not_left

theorem not_holds_ofExpressions_nil : ∀ parts : List Expression, ∀ q ∈ ofExpressions parts, ¬ q.Holds []
  | [], q, hq => by
    rw [ofExpressions] at hq
    cases hq
  | e :: rest, q, hq => by
    rw [ofExpressions] at hq
    rcases List.mem_cons.1 hq with rfl | hq
    · exact not_holds_ofExpression_nil e
    · exact not_holds_ofExpressions_nil rest q hq

end

end Query

end Concordance.Index
