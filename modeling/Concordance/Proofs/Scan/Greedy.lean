/-
A scan as a greedy choice. It goes to the first occurrence and on behind it, so what it lists is disjoint, and an
occurrence that is not listed overlaps a listed one that starts earlier. No list of disjoint occurrences is longer;
so a pattern that occurs at fewer places is never listed more often, although the scan may take other places then.
-/
import Concordance.Proofs.Scan.Leftmost

namespace Concordance

open Text

namespace Scan.Pattern

variable {p : Pattern} {text : List Char} {start place : Nat} {places : List Nat}

/-- Where a scan goes on behind an occurrence: at its end, and never where it has been. -/
def behind (p : Pattern) (place : Nat) : Nat := max (place + p.letters.length) (place + 1)

/-- Is a place the first one from `start` on at which the pattern occurs? -/
structure IsFirstFrom (p : Pattern) (text : List Char) (start place : Nat) : Prop where
  reached : start ≤ place
  occurs : p.OccursIn text place
  least : ∀ i, start ≤ i → p.OccursIn text i → place ≤ i

theorem IsFirstFrom.unique (h : p.IsFirstFrom text start place) {place' : Nat} (h' : p.IsFirstFrom text start place') :
    place = place' :=
  le_antisymm (h.least _ h'.reached h'.occurs) (h'.least _ h.reached h.occurs)

/-- The first place of all is the least one. -/
theorem IsFirstFrom.isLeast (h : p.IsFirstFrom text 0 place) : IsLeast {i | p.OccursIn text i} place :=
  ⟨h.occurs, fun i occurs => h.least i (Nat.zero_le i) occurs⟩

/-- Are these the places that are found from `start` on by going to the first occurrence and on behind it? -/
inductive FindsFrom (p : Pattern) (text : List Char) : Nat → List Nat → Prop
  | done {start : Nat} (none : ∀ place, start ≤ place → ¬ p.OccursIn text place) : FindsFrom p text start []
  | next {start place : Nat} {rest : List Nat} (first : p.IsFirstFrom text start place)
      (later : FindsFrom p text (p.behind place) rest) : FindsFrom p text start (place :: rest)

theorem lt_behind : place < p.behind place := lt_max_of_lt_right (Nat.lt_succ_self place)

theorem add_length_le_behind : place + p.letters.length ≤ p.behind place := le_max_left _ _

theorem behind_mono {i j : Nat} (h : i ≤ j) : p.behind i ≤ p.behind j :=
  max_le_max (Nat.add_le_add_right h _) (Nat.add_le_add_right h 1)

/-! ## What is found -/

namespace FindsFrom

/-- A place without an occurrence may be passed. -/
theorem of_not_occursIn (h : p.FindsFrom text (start + 1) places) (free : ¬ p.OccursIn text start) :
    p.FindsFrom text start places := by
  have passed {i : Nat} (reached : start ≤ i) (occurs : p.OccursIn text i) : start + 1 ≤ i := by
    rcases Nat.eq_or_lt_of_le reached with rfl | later
    · exact absurd occurs free
    · exact later
  cases h with
  | done none => exact .done fun i reached occurs => none i (passed reached occurs) occurs
  | next first later =>
    refine .next ⟨(Nat.le_succ start).trans first.reached, first.occurs, fun i reached occurs => ?_⟩ later
    exact first.least i (passed reached occurs) occurs

theorem le_of_mem (h : p.FindsFrom text start places) : ∀ place ∈ places, start ≤ place := by
  induction h with
  | done _ => exact nofun
  | @next start place rest first _ ih =>
    refine List.forall_mem_cons.2 ⟨first.reached, fun later hl => ?_⟩
    calc start ≤ place := first.reached
      _ ≤ p.behind place := lt_behind.le
      _ ≤ later := ih later hl

theorem occursIn_of_mem (h : p.FindsFrom text start places) : ∀ place ∈ places, p.OccursIn text place := by
  induction h with
  | done _ => exact nofun
  | next first _ ih => exact List.forall_mem_cons.2 ⟨first.occurs, ih⟩

/-- Each place that is found is behind all that were found before. -/
theorem pairwise (h : p.FindsFrom text start places) : places.Pairwise fun i j => p.behind i ≤ j := by
  induction h with
  | done _ => exact .nil
  | next _ later ih => exact .cons later.le_of_mem ih

/-- An occurrence that is passed over overlaps one that starts earlier and is found. -/
theorem mem_or_overlaps (h : p.FindsFrom text start places) :
    ∀ i, start ≤ i → p.OccursIn text i → i ∈ places ∨ ∃ j ∈ places, j < i ∧ i < j + p.letters.length := by
  induction h with
  | done none => exact fun i reached occurs => absurd occurs (none i reached)
  | @next start place rest first _ ih =>
    intro i reached occurs
    rcases Nat.eq_or_lt_of_le (first.least i reached occurs) with rfl | later
    · exact .inl List.mem_cons_self
    · by_cases inside : i < place + p.letters.length
      · exact .inr ⟨place, List.mem_cons_self, later, inside⟩
      · rcases ih i (max_le (by omega) later) occurs with found | ⟨j, hj, overlaps⟩
        · exact .inl (List.mem_cons_of_mem place found)
        · exact .inr ⟨j, List.mem_cons_of_mem place hj, overlaps⟩

/-- No disjoint occurrences are more than those found: going to the first leaves the most room for others. -/
theorem length_le (h : p.FindsFrom text start places) : ∀ {others : List Nat}, (∀ i ∈ others, start ≤ i) →
    (∀ i ∈ others, p.OccursIn text i) → (others.Pairwise fun i j => p.behind i ≤ j) →
      others.length ≤ places.length := by
  induction h with
  | done none =>
    intro others reached occur _
    cases others with
    | nil => exact le_rfl
    | cons i others => exact absurd (occur i List.mem_cons_self) (none i (reached i List.mem_cons_self))
  | @next start place rest first _ ih =>
    intro others reached occur apart
    cases others with
    | nil => exact Nat.zero_le _
    | cons i others =>
      obtain ⟨behind_i, apart⟩ := List.pairwise_cons.1 apart
      have least : place ≤ i := first.least i (reached i List.mem_cons_self) (occur i List.mem_cons_self)
      refine Nat.succ_le_succ (ih (fun j hj => ?_) (fun j hj => occur j (List.mem_cons_of_mem i hj)) apart)
      exact (behind_mono least).trans (behind_i j hj)

/-- If it occurs at no more places, another pattern of the same length is found no more often. -/
theorem length_le_of_imp {q : Pattern} {fewer : List Nat} (h : p.FindsFrom text start places)
    (hq : q.FindsFrom text start fewer) (length : q.letters.length = p.letters.length)
    (imp : ∀ place, q.OccursIn text place → p.OccursIn text place) : fewer.length ≤ places.length := by
  have behind : q.behind = p.behind := by
    funext place
    rw [Pattern.behind, Pattern.behind, length]
  refine h.length_le hq.le_of_mem (fun i hi => imp i (hq.occursIn_of_mem i hi)) ?_
  rw [← behind]
  exact hq.pairwise

/-- What is found is settled: the first occurrence is, and so is where to go on from there. -/
theorem unique (h : p.FindsFrom text start places) {others : List Nat} (h' : p.FindsFrom text start others) :
    places = others := by
  induction h generalizing others with
  | done none =>
    cases h' with
    | done _ => rfl
    | next first _ => exact absurd first.occurs (none _ first.reached)
  | @next start place rest first _ ih =>
    cases h' with
    | done none => exact absurd first.occurs (none _ first.reached)
    | @next _ place' _ first' later' =>
      obtain rfl := first.unique first'
      rw [ih later']

theorem eq_nil_iff (h : p.FindsFrom text 0 places) : places = [] ↔ ¬ ∃ place, p.OccursIn text place := by
  cases h with
  | done none => exact iff_of_true rfl fun ⟨place, occurs⟩ => none place (Nat.zero_le place) occurs
  | next first _ => exact iff_of_false (List.cons_ne_nil _ _) (not_not_intro ⟨_, first.occurs⟩)

end FindsFrom

/-! ## What a scan takes -/

open Classical in
/-- From each place on, the occurrences that a scan takes are those found behind what it skips. -/
theorem ReachesOver.findsFrom : ∀ {n place skip : Nat}, p.ReachesOver text place skip → text.length < place + n →
    p.FindsFrom text (place + skip) ((List.range' place n).filter fun i => p.Takes text i)
  | 0, place, skip, _, ends => by
    refine .done fun i reached occurs => ?_
    have := occurs.inside
    omega
  | n + 1, place, skip, h, ends => by
    rw [List.range'_succ]
    by_cases taken : p.Takes text place
    · have skipped : skip = 0 := by
        by_contra some
        obtain ⟨earlier, less, before, reach⟩ := h.attained (by omega)
        have := (Pattern.takes_iff.1 taken).2 earlier less before
        omega
      have on : p.behind place = place + 1 + (p.letters.length - 1) := by
        unfold behind
        omega
      subst skipped
      rw [List.filter_cons_of_pos (by simpa using taken)]
      refine .next ⟨le_rfl, taken.occursIn, fun i reached _ => reached⟩ ?_
      rw [on]
      exact (h.next_of_takes taken).findsFrom (by omega)
    · have later := (h.next_of_not_takes taken).findsFrom (n := n) (by omega)
      rw [List.filter_cons_of_neg (by simpa using taken)]
      rcases Nat.eq_zero_or_pos skip with rfl | some
      · refine later.of_not_occursIn fun occurs => taken (Pattern.takes_iff.2 ⟨occurs, h.atMost⟩)
      · have same : place + 1 + (skip - 1) = place + skip := by omega
        rwa [same] at later

/-- The spans of a pattern are those of the places that are found from the start of the text on. -/
theorem exists_findsFrom (p : Pattern) (text : List Char) :
    ∃ places, p.FindsFrom text 0 places ∧
      p.spans text = places.map fun place => spanAt text place p.letters.length := by
  classical
  refine ⟨_, reachesOver_zero.findsFrom (n := text.length + 1) (by omega), ?_⟩
  rw [spans_eq_map, List.range_eq_range']

/-! ## The first occurrence -/

/-- The first span of a pattern is that of its first occurrence. -/
theorem first?_eq_some_iff {x : Span} :
    p.first? text = some x ↔ ∃ place, p.IsFirstFrom text 0 place ∧ x = spanAt text place p.letters.length := by
  obtain ⟨places, finds, listed⟩ := p.exists_findsFrom text
  rw [first?, listed, List.head?_map]
  cases finds with
  | done none =>
    refine iff_of_false (Option.some_ne_none x).symm ?_
    rintro ⟨place, first, -⟩
    exact none place first.reached first.occurs
  | @next _ place rest first _ =>
    rw [List.head?_cons, Option.map_some, Option.some_inj]
    constructor
    · rintro rfl
      exact ⟨place, first, rfl⟩
    · rintro ⟨place', first', rfl⟩
      rw [first.unique first']

theorem first?_eq_none_iff : p.first? text = none ↔ ∀ place, ¬ p.OccursIn text place := by
  rw [first?, List.head?_eq_none_iff, ← not_iff_not, ← ne_eq, spans_ne_nil_iff_occursIn]
  push Not
  rfl

end Scan.Pattern

end Concordance
