/-
Where a snippet points. A snippet without the marks of what was left out is found where its text first stands in
the document, and points to the first word of its label inside that. Both searches count bytes, the second inside
what the first has found, and only their sum is turned into characters; so a snippet that is found always points into
the run of the text that it was found as, whatever characters stand there.
-/
import Concordance.Index.Locate
import Concordance.Proofs.Scan.Greedy
import Concordance.Proofs.Text.Pieces

namespace Concordance.Index

open Text Scan

variable {text letters label s : List Char} {place : Nat}

/-! ## Where a text first stands -/

theorem form_exact : Pattern.form ⟨letters, true, false⟩ = id := rfl

/-- Of letters compared as they are, an occurrence is a place where they stand. -/
theorem occursIn_exact_iff (hne : letters ≠ []) :
    Pattern.OccursIn ⟨letters, true, false⟩ text place ↔ letters <+: text.drop place := by
  constructor
  · intro occurs
    have stands := occurs.letters
    rw [form_exact, List.map_id, List.map_id] at stands
    exact List.prefix_iff_eq_take.2 stands.symm
  · intro stands
    have some := List.length_pos_iff.2 hne
    have long := stands.length_le
    rw [List.length_drop] at long
    refine ⟨show place + letters.length ≤ text.length by omega, ?_, nofun⟩
    rw [form_exact, List.map_id, List.map_id]
    exact (List.prefix_iff_eq_take.1 stands).symm

theorem first?_exact_eq_none_iff : Pattern.first? ⟨letters, true, false⟩ text = none ↔ ¬ letters <:+: text := by
  have found : Pattern.spans ⟨letters, true, false⟩ text ≠ [] ↔ _ := Pattern.spans_ne_nil_iff rfl
  rw [form_exact, List.map_id, List.map_id] at found
  rw [Pattern.first?, List.head?_eq_none_iff, ← found, ne_eq, not_not]

/-! ## Where the label points -/

/--
Is this the place of a label in a text: where its first run of letters and numbers first stands, whatever the case,
or the start if the label has no such run or the text does not hold it?
-/
def IsAnchor (label s : List Char) (place : Nat) : Prop :=
  (∃ word, IsFirstRun isAlphanumeric label word ∧
      IsLeast {i | Pattern.OccursIn ⟨word, false, false⟩ s i} place) ∨
    (place = 0 ∧ ∀ word, IsFirstRun isAlphanumeric label word → ∀ i, ¬ Pattern.OccursIn ⟨word, false, false⟩ s i)

theorem anchorWord?_eq_some_iff {word : List Char} :
    anchorWord? label = some word ↔ IsFirstRun isAlphanumeric label word :=
  find?_pieces_eq_some_iff

/-- The byte that is looked up lies before the character at the place of the label. -/
theorem exists_isAnchor (label s : List Char) :
    ∃ place, IsAnchor label s place ∧ anchorByte label s = byteLength (s.take place) := by
  unfold anchorByte
  cases hword : anchorWord? label with
  | none =>
    refine ⟨0, .inr ⟨rfl, fun word hrun => ?_⟩, rfl⟩
    rw [anchorWord?_eq_some_iff.2 hrun] at hword
    cases hword
  | some word =>
    have hrun := anchorWord?_eq_some_iff.1 hword
    rw [Option.bind_some]
    cases hfirst : Pattern.first? ⟨word, false, false⟩ s with
    | none =>
      refine ⟨0, .inr ⟨rfl, fun word' hrun' => ?_⟩, rfl⟩
      rw [anchorWord?_eq_some_iff.2 hrun', Option.some_inj] at hword
      rw [hword]
      exact Pattern.first?_eq_none_iff.1 hfirst
    | some found =>
      obtain ⟨place, first, rfl⟩ := Pattern.first?_eq_some_iff.1 hfirst
      exact ⟨place, .inl ⟨word, hrun, first.isLeast⟩, rfl⟩

/-- The place of a label lies inside the text: a word has letters. -/
theorem IsAnchor.lt (hne : s ≠ []) (h : IsAnchor label s place) : place < s.length := by
  rcases h with ⟨word, ⟨before, after, -, letters, -⟩, occurs, -⟩ | ⟨rfl, -⟩
  · have inside := occurs.inside
    have some := List.length_pos_iff.2 letters
    dsimp only at inside
    omega
  · exact List.length_pos_iff.2 hne

/-! ## Where the snippet points -/

variable {c : Context}

theorem locate?_eq_none_iff :
    locate? text c = none ↔ snippetBody c.excerpt.toList = [] ∨ ¬ snippetBody c.excerpt.toList <:+: text := by
  unfold locate?
  dsimp only
  split
  · rename_i empty
    exact iff_of_true rfl (.inl (List.isEmpty_iff.1 empty))
  · rename_i some
    rw [List.isEmpty_iff] at some
    rw [Option.map_eq_none_iff, first?_exact_eq_none_iff, or_iff_right some]

/-- The bytes up to a text that stands at a place, and those up to a place in it, are those up to the sum of both. -/
theorem length_takeBytes_add {within : Nat} (stands : s <+: text.drop place) (long : place + s.length ≤ text.length)
    (inside : within ≤ s.length) :
    (takeBytes (byteLength (text.take place) + byteLength (s.take within)) text).length = place + within := by
  have run : text.take (place + within) = text.take place ++ s.take within := by
    obtain ⟨rest, split⟩ := stands
    rw [List.take_add, ← split, List.take_append_of_le_length inside]
  rw [← byteLength_append, ← run, takeBytes_take, List.length_take_of_le (by omega)]

theorem exists_of_locate? {position : Nat} (h : locate? text c = some position) :
    ∃ start within, IsLeast {i | snippetBody c.excerpt.toList <+: text.drop i} start ∧
      IsAnchor c.matched.toList (snippetBody c.excerpt.toList) within ∧ position = start + within ∧
        within < (snippetBody c.excerpt.toList).length := by
  generalize hbody : snippetBody c.excerpt.toList = body
  unfold locate? at h
  rw [hbody] at h
  dsimp only at h
  split at h
  · cases h
  · rename_i some
    have hne : body ≠ [] := fun empty => some (List.isEmpty_iff.2 empty)
    obtain ⟨found, hfound, rfl⟩ := Option.map_eq_some_iff.1 h
    obtain ⟨start, first, rfl⟩ := Pattern.first?_eq_some_iff.1 hfound
    have stands : body <+: text.drop start := (occursIn_exact_iff hne).1 first.occurs
    have long : start + body.length ≤ text.length := first.occurs.inside
    -- so what is looked through for the label is the body itself
    have there : (spanAt text start body.length).textIn text = body := by
      rw [textIn_spanAt]
      exact (List.prefix_iff_eq_take.1 stands).symm
    obtain ⟨within, anchor, bytes⟩ := exists_isAnchor c.matched.toList body
    have inside := anchor.lt hne
    refine ⟨start, within, ?_, anchor, ?_, inside⟩
    · simpa only [occursIn_exact_iff hne] using first.isLeast
    · rw [there, bytes]
      exact length_takeBytes_add stands long inside.le

/--
A snippet is placed unless nothing is left of it or the text does not hold what is left. Its place is counted in
characters: those before the first place where the text holds it, and from there on those before the first word of
its label, so that it lies inside that run of the text.
-/
theorem located_in_first_occurrence (text : List Char) (c : Context) :
    let g := trim (dropSuffix ['.', '.', '.'] (dropPrefix ['.', '.', '.'] c.excerpt.toList))
    (locate? text c = none ↔ g = [] ∨ ¬ g <:+: text) ∧
      ∀ position, locate? text c = some position →
        ∃ s w, IsLeast {i | g <+: text.drop i} s ∧ IsAnchor c.matched.toList g w ∧ position = s + w ∧
          s ≤ position ∧ position < s + g.length := by
  intro g
  have body : snippetBody c.excerpt.toList = g := rfl
  constructor
  · rw [← body]
    exact locate?_eq_none_iff
  · intro position found
    obtain ⟨s, w, least, anchor, rfl, inside⟩ := exists_of_locate? found
    rw [body] at least anchor inside
    exact ⟨s, w, least, anchor, rfl, Nat.le_add_right s w, Nat.add_lt_add_left inside s⟩

/-- A Kelvin sign takes three bytes and is a `k` in another case. The dots before it are those of the text. -/
theorem located_kelvin :
    let text := "été: ... été ...\u212aelvin".toList
    let c : Context := ⟨0, "......\u212aelvin...", "\"kelvin\" log", none⟩
    let g := "...\u212aelvin".toList
    locate? text c = some 16 ∧
      ∃ s w, IsLeast {i | g <+: text.drop i} s ∧ IsAnchor "\"kelvin\" log".toList g w ∧ 16 = s + w := by
  intro text c g
  have found : locate? text c = some 16 := by decide +kernel
  have body : trim (dropSuffix ['.', '.', '.'] (dropPrefix ['.', '.', '.'] c.excerpt.toList)) = g := by decide +kernel
  obtain ⟨s, w, least, anchor, sum, -⟩ := (located_in_first_occurrence text c).2 16 found
  rw [body] at least anchor
  exact ⟨found, s, w, least, anchor, sum⟩

/-- A label whose first word was found in another form points to the start of the snippet. -/
example : locate? "alpha beta gamma delta".toList ⟨0, "...beta gamma...", "stemmed-away", none⟩ = some 6 := by
  decide +kernel

end Concordance.Index
