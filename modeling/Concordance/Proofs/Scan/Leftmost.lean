/-
Which occurrences a scan takes. From the left it takes each occurrence that starts at or behind the end of
the last one taken, so it passes over occurrences that overlap a taken one; the spans of a pattern are those
of the occurrences taken, in order. Some occurrence is always taken if there is one.
-/
import Concordance.Proofs.Scan.Occurrences

namespace Concordance

open Text

namespace Scan.Pattern

variable {p : Pattern} {text : List Char}

/--
Does a scan take the occurrence at a place: is there one, and does none that the scan took before reach over
the place?
-/
def Takes (p : Pattern) (text : List Char) (place : Nat) : Prop :=
  p.OccursIn text place ∧ ∀ earlier, earlier < place → Takes p text earlier → earlier + p.letters.length ≤ place
termination_by place

theorem takes_iff {place : Nat} :
    p.Takes text place ↔ p.OccursIn text place ∧
      ∀ earlier < place, p.Takes text earlier → earlier + p.letters.length ≤ place := by
  rw [Takes]

theorem Takes.occursIn {place : Nat} (h : p.Takes text place) : p.OccursIn text place := (takes_iff.1 h).1

/-- Do the occurrences taken in front of a place reach `skip` characters over it? -/
structure ReachesOver (p : Pattern) (text : List Char) (place skip : Nat) : Prop where
  atMost : ∀ earlier < place, p.Takes text earlier → earlier + p.letters.length ≤ place + skip
  attained : 0 < skip → ∃ earlier < place, p.Takes text earlier ∧ earlier + p.letters.length = place + skip

theorem reachesOver_zero : p.ReachesOver text 0 0 :=
  ⟨fun _ less => absurd less (Nat.not_lt_zero _), fun some => absurd some (lt_irrefl 0)⟩

/-- A scan takes the occurrence at a place that it does not skip. -/
theorem ReachesOver.takes_iff {before rest : List Char} {skip : Nat}
    (h : p.ReachesOver (before ++ rest) before.length skip) :
    p.Takes (before ++ rest) before.length ↔ (skip = 0 && p.occursAt before.getLast? rest) = true := by
  rw [Pattern.takes_iff, Bool.and_eq_true, decide_eq_true_eq]
  constructor
  · rintro ⟨occurs, free⟩
    refine ⟨?_, occursAt_of_occursIn occurs⟩
    by_contra skipped
    obtain ⟨earlier, less, taken, reach⟩ := h.attained (by omega)
    have := free earlier less taken
    omega
  · rintro ⟨rfl, occurs⟩
    exact ⟨occursIn_of_occursAt occurs, h.atMost⟩

theorem ReachesOver.next_of_takes {place skip : Nat} (h : p.ReachesOver text place skip) (ht : p.Takes text place) :
    p.ReachesOver text (place + 1) (p.letters.length - 1) := by
  have free := (Pattern.takes_iff.1 ht).2
  constructor
  · intro earlier less taken
    rcases Nat.lt_succ_iff_lt_or_eq.1 less with less | rfl
    · have := free earlier less taken
      omega
    · omega
  · intro some
    exact ⟨place, by omega, ht, by omega⟩

theorem ReachesOver.next_of_not_takes {place skip : Nat} (h : p.ReachesOver text place skip)
    (ht : ¬ p.Takes text place) : p.ReachesOver text (place + 1) (skip - 1) := by
  constructor
  · intro earlier less taken
    rcases Nat.lt_succ_iff_lt_or_eq.1 less with less | rfl
    · have := h.atMost earlier less taken
      omega
    · exact absurd taken ht
  · intro some
    obtain ⟨earlier, less, taken, reach⟩ := h.attained (by omega)
    exact ⟨earlier, by omega, taken, by omega⟩

open Classical in
/-- From each place on, the spans are those of the occurrences taken there and behind it, in order. -/
theorem spansFrom_eq_map : ∀ {rest before : List Char} {skip : Nat},
    p.ReachesOver (before ++ rest) before.length skip →
      p.spansFrom before.getLast? (byteLength before) skip rest =
        ((List.range' before.length (rest.length + 1)).filter fun place => p.Takes (before ++ rest) place).map
          fun place => spanAt (before ++ rest) place p.letters.length
  | [], before, skip, h => by
    rw [spansFrom, List.length_nil, Nat.zero_add, List.range'_one, List.filter_singleton]
    by_cases found : (skip = 0 && p.occursAt before.getLast? []) = true
    · have taken := h.takes_iff.2 found
      -- nothing follows, so the pattern has no letters
      have inside := taken.occursIn.inside
      rw [List.append_nil] at inside
      have none : p.letters.length = 0 := by omega
      rw [if_pos found, decide_eq_true taken]
      simp [spanAt, none]
    · have free : ¬ p.Takes (before ++ []) before.length := fun taken => found (h.takes_iff.1 taken)
      rw [if_neg found, decide_eq_false free]
      rfl
  | c :: rest, before, skip, h => by
    have ih : ∀ {skip}, p.ReachesOver (before ++ c :: rest) (before.length + 1) skip →
        p.spansFrom (some c) (byteLength before + c.utf8Size) skip rest =
          ((List.range' (before.length + 1) (rest.length + 1)).filter fun place =>
            p.Takes (before ++ c :: rest) place).map fun place =>
              spanAt (before ++ c :: rest) place p.letters.length := by
      intro skip h
      have step : before ++ c :: rest = before ++ [c] ++ rest := by simp
      have length : before.length + 1 = (before ++ [c]).length := by simp
      have last : some c = (before ++ [c]).getLast? := by simp
      have bytes : byteLength before + c.utf8Size = byteLength (before ++ [c]) := by simp
      rw [step, length] at h
      rw [step, length, last, bytes]
      exact spansFrom_eq_map h
    rw [spansFrom, List.length_cons, List.range'_succ]
    by_cases found : (skip = 0 && p.occursAt before.getLast? (c :: rest)) = true
    · have taken := h.takes_iff.2 found
      have span : spanAt (before ++ c :: rest) before.length p.letters.length =
          ⟨byteLength before, byteLength before + byteLength ((c :: rest).take p.letters.length)⟩ := by
        rw [spanAt, List.take_add]
        simp
      rw [if_pos found, ih (h.next_of_takes taken), List.filter_cons_of_pos (by simpa using taken),
        List.map_cons, span]
    · have free : ¬ p.Takes (before ++ c :: rest) before.length := fun taken => found (h.takes_iff.1 taken)
      rw [if_neg found, ih (h.next_of_not_takes free), List.filter_cons_of_neg (by simpa using free)]

open Classical in
/-- The spans of a pattern are those of the occurrences that a scan takes, in order. -/
theorem spans_eq_map : p.spans text =
    ((List.range (text.length + 1)).filter fun place => p.Takes text place).map
      fun place => spanAt text place p.letters.length := by
  have start : p.ReachesOver ([] ++ text) ([] : List Char).length 0 := reachesOver_zero
  rw [List.range_eq_range']
  exact spansFrom_eq_map start

theorem mem_spans_iff {x : Span} :
    x ∈ p.spans text ↔ ∃ place, p.Takes text place ∧ x = spanAt text place p.letters.length := by
  classical
  simp only [spans_eq_map, List.mem_map, List.mem_filter, List.mem_range, decide_eq_true_eq]
  constructor
  · rintro ⟨place, ⟨-, taken⟩, rfl⟩
    exact ⟨place, taken, rfl⟩
  · rintro ⟨place, taken, rfl⟩
    have inside := taken.occursIn.inside
    exact ⟨place, ⟨by omega, taken⟩, rfl⟩

/-- What a scan finds are occurrences. -/
theorem mem_spans {x : Span} (h : x ∈ p.spans text) :
    ∃ place, p.OccursIn text place ∧ x = spanAt text place p.letters.length := by
  obtain ⟨place, taken, rfl⟩ := mem_spans_iff.1 h
  exact ⟨place, taken.occursIn, rfl⟩

/-- A scan takes some occurrence if there is one: none comes before the first. -/
theorem exists_takes_iff : (∃ place, p.Takes text place) ↔ ∃ place, p.OccursIn text place := by
  classical
  constructor
  · rintro ⟨place, taken⟩
    exact ⟨place, taken.occursIn⟩
  · intro some
    refine ⟨Nat.find some, takes_iff.2 ⟨Nat.find_spec some, fun earlier less taken => ?_⟩⟩
    exact absurd taken.occursIn (Nat.find_min some less)

theorem spans_ne_nil_iff_occursIn : p.spans text ≠ [] ↔ ∃ place, p.OccursIn text place := by
  rw [← exists_takes_iff]
  constructor
  · intro some
    obtain ⟨x, hx⟩ := List.exists_mem_of_ne_nil _ some
    obtain ⟨place, taken, -⟩ := mem_spans_iff.1 hx
    exact ⟨place, taken⟩
  · rintro ⟨place, taken⟩
    exact List.ne_nil_of_mem (mem_spans_iff.2 ⟨place, taken, rfl⟩)

end Scan.Pattern

end Concordance
