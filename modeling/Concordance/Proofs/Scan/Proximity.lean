/-
What a search for pairs finds. It looks at the occurrences that the scans of its two terms take, parts of
words included. So its documents hold both terms close together, but an occurrence that overlaps a taken one
is not looked at, and a document may be missed for it; and a document found need not hold the terms as whole
words.
-/
import Concordance.Proofs.Engine.Evaluate
import Concordance.Proofs.Scan.Pages

namespace Concordance

open Text Scan

/-! ## Hits for exactly some documents -/

open Classical in
/-- Are these the hits for exactly the documents of a list that have a property, in the order of the list? -/
def HitsExactly (documents : List Document) (P : Document → Prop) (hits : List Hit) : Prop :=
  List.Forall₂ (fun d h => h = d.hit h.contexts.length h.contexts) (documents.filter (P ·)) hits

theorem hitsExactly_filterMap {documents : List Document} {P : Document → Prop} {find : Document → Option Hit}
    (hit : ∀ d h, find d = some h → h = d.hit h.contexts.length h.contexts) (finds : ∀ d, find d ≠ none ↔ P d) :
    HitsExactly documents P (documents.filterMap find) :=
  forall₂_filterMap hit finds documents

/-- Hits for the documents with a property are those for the documents with a weaker one if none is missed. -/
theorem HitsExactly.iff_of_imp {documents : List Document} {P Q : Document → Prop} {hits : List Hit}
    (h : HitsExactly documents P hits) (imp : ∀ d, P d → Q d) :
    HitsExactly documents Q hits ↔ ∀ d ∈ documents, Q d → P d := by
  classical
  constructor
  · intro h' d hd hq
    -- the documents with the stronger property are as many, so they are all
    have sub : (documents.filter (P ·)).Sublist (documents.filter (Q ·)) := by
      refine List.monotone_filter_right _ fun e he => ?_
      simpa using imp e (by simpa using he)
    have same : documents.filter (P ·) = documents.filter (Q ·) := by
      refine sub.eq_of_length ?_
      exact (List.Forall₂.length_eq h).trans (List.Forall₂.length_eq h').symm
    have kept : d ∈ documents.filter (Q ·) := List.mem_filter.2 ⟨hd, by simpa using hq⟩
    rw [← same] at kept
    simpa using (List.mem_filter.1 kept).2
  · intro all
    have same : documents.filter (Q ·) = documents.filter (P ·) := by
      refine List.filter_congr fun d hd => ?_
      rw [decide_eq_decide]
      exact ⟨all d hd, imp d⟩
    unfold HitsExactly at h ⊢
    rwa [same]

/-! ## Occurrences close together -/

namespace Scan.Pattern

open Scanner

variable {p q : Pattern} {text : List Char} {n : Nat}

/-- Do two patterns occur in a text apart from each other, with at most so many words between? -/
def Near (p q : Pattern) (text : List Char) (maxWords : Nat) : Prop :=
  ∃ i j, p.OccursIn text i ∧ q.OccursIn text j ∧ WithinWords text maxWords i p.letters.length j q.letters.length

/-- Do scans for two patterns take occurrences that are apart, with at most so many words between? -/
def TakesNear (p q : Pattern) (text : List Char) (maxWords : Nat) : Prop :=
  ∃ i j, p.Takes text i ∧ q.Takes text j ∧ WithinWords text maxWords i p.letters.length j q.letters.length

theorem TakesNear.near (h : p.TakesNear q text n) : p.Near q text n := by
  obtain ⟨i, j, hi, hj, close⟩ := h
  exact ⟨i, j, hi.occursIn, hj.occursIn, close⟩

/-- Spans of occurrences are close together exactly if the occurrences are. -/
theorem isClose_spanAt_iff {i j : Nat} (hi : p.OccursIn text i) (hj : q.OccursIn text j) :
    isClose text n (spanAt text i p.letters.length) (spanAt text j q.letters.length) = true ↔
      WithinWords text n i p.letters.length j q.letters.length := by
  refine ⟨withinWords_of_isClose, ?_⟩
  rintro ⟨apart, few⟩
  have inside := hi.inside
  have inside' := hj.inside
  let start := min (i + p.letters.length) (j + q.letters.length)
  have bytes : byteLength (text.take start) < byteLength (text.take (max i j)) :=
    byteLength_take_lt apart (by omega)
  have between : (spanAt text start (max i j - start)).textIn text = _ := textIn_spanAt _ _
  rw [spanAt, Nat.add_sub_cancel' apart.le] at between
  unfold isClose gap?
  dsimp only [spanAt]
  rw [← byteLength_take_min, ← byteLength_take_max, if_pos bytes, between, Option.any_some, decide_eq_true_eq]
  exact few

theorem exists_isClose_iff :
    (∃ x ∈ p.spans text, ∃ y ∈ q.spans text, isClose text n x y = true) ↔ p.TakesNear q text n := by
  constructor
  · rintro ⟨x, hx, y, hy, close⟩
    obtain ⟨i, hi, rfl⟩ := mem_spans_iff.1 hx
    obtain ⟨j, hj, rfl⟩ := mem_spans_iff.1 hy
    exact ⟨i, j, hi, hj, (isClose_spanAt_iff hi.occursIn hj.occursIn).1 close⟩
  · rintro ⟨i, j, hi, hj, close⟩
    exact ⟨_, mem_spans_iff.2 ⟨i, hi, rfl⟩, _, mem_spans_iff.2 ⟨j, hj, rfl⟩,
      (isClose_spanAt_iff hi.occursIn hj.occursIn).2 close⟩

/-! ## Patterns that overlap themselves -/

/-- Is an end of the pattern also its start, so that one occurrence can reach into another? -/
def SelfOverlaps (p : Pattern) : Prop :=
  ∃ k, 0 < k ∧ k < p.letters.length ∧ (p.letters.drop k).map p.form <+: p.letters.map p.form

instance (p : Pattern) : Decidable p.SelfOverlaps :=
  decidable_of_iff (∃ k < p.letters.length, 0 < k ∧ (p.letters.drop k).map p.form <+: p.letters.map p.form) (by
    unfold SelfOverlaps
    simp only [and_left_comm])

theorem OccursIn.add_length_le {i j : Nat} (hp : ¬ p.SelfOverlaps) (hi : p.OccursIn text i) (hj : p.OccursIn text j)
    (less : i < j) : i + p.letters.length ≤ j := by
  by_contra reach
  refine hp ⟨j - i, by omega, by omega, ?_⟩
  -- what the two occurrences share is the end of the one and the start of the other
  have shared : (p.letters.drop (j - i)).map p.form =
      ((text.drop j).take (p.letters.length - (j - i))).map p.form := by
    rw [List.map_drop, ← hi.letters, ← List.map_drop, List.drop_take, List.drop_drop]
    congr 3
    omega
  rw [shared, ← hj.letters]
  exact (List.take_prefix_take_left (by omega)).map _

theorem takes_iff_occursIn (hp : ¬ p.SelfOverlaps) {place : Nat} : p.Takes text place ↔ p.OccursIn text place := by
  refine ⟨Takes.occursIn, fun occurs => takes_iff.2 ⟨occurs, fun earlier less taken => ?_⟩⟩
  exact taken.occursIn.add_length_le hp occurs less

end Scan.Pattern

/-! ## Searches for pairs -/

namespace Scanner

variable (s : Scanner)

theorem hit_of_hit? {d : Document} {found : List (Span × String)} {h : Hit} (hh : s.hit? d found = some h) :
    h = d.hit h.contexts.length h.contexts := by
  unfold hit? at hh
  split at hh
  · cases hh
  · cases hh
    simp [Document.hit, contexts]

theorem findPair?_ne_none_iff {p q : Pattern} {n : Nat} {label : String} {d : Document} :
    s.findPair? p q n label d ≠ none ↔ p.TakesNear q d.text.toList n := by
  have limit : 0 < maxPairs := by decide
  rw [Option.ne_none_iff_exists', findPair?, exists_hit?_iff, ne_eq, List.map_eq_nil_iff, ← ne_eq,
    closePairs_ne_nil limit]
  exact Pattern.exists_isClose_iff

/--
A search for pairs has the hits for exactly the documents in which the scans for the two terms take occurrences
close together. It has those for exactly the documents that hold occurrences close together, overlapping ones
included, if and only if no such document holds only close occurrences that a scan passes over; so it does for
terms that do not overlap themselves.
-/
theorem searchProximity_exact_iff (a b : Term) (n : UInt32) :
    let p := s.pattern a false
    let q := s.pattern b false
    let hits := s.searchProximity a b n
    HitsExactly s.documents (fun d => p.TakesNear q d.text.toList n.toNat) hits ∧
      (HitsExactly s.documents (fun d => p.Near q d.text.toList n.toNat) hits ↔
        ∀ d ∈ s.documents, p.Near q d.text.toList n.toNat → p.TakesNear q d.text.toList n.toNat) ∧
      (¬ p.SelfOverlaps → ¬ q.SelfOverlaps →
        HitsExactly s.documents (fun d => p.Near q d.text.toList n.toNat) hits) := by
  intro p q hits
  have taken : HitsExactly s.documents (fun d => p.TakesNear q d.text.toList n.toNat) hits :=
    hitsExactly_filterMap (fun d h hh => s.hit_of_hit? hh) fun d => s.findPair?_ne_none_iff
  have exact_iff := taken.iff_of_imp (Q := fun d => p.Near q d.text.toList n.toNat) fun d => Pattern.TakesNear.near
  refine ⟨taken, exact_iff, fun hp hq => exact_iff.2 fun d _ near => ?_⟩
  obtain ⟨i, j, hi, hj, close⟩ := near
  exact ⟨i, j, (Pattern.takes_iff_occursIn hp).2 hi, (Pattern.takes_iff_occursIn hq).2 hj, close⟩

/-! ### A phrase that overlaps itself -/

/-- Its last three words hold the phrase of two logs right in front of the island. -/
def logs : Document := ⟨1, 1, "a.pdf", "DataSet 1/a.pdf", 1, "log log log island", none⟩

/-- Words that do not overlap themselves, an island and a log. -/
theorem searchProximity_island_log :
    let s : Scanner := ⟨[logs], ⟨false, false, 300⟩⟩
    let p := s.pattern ⟨"island", false⟩ false
    let q := s.pattern ⟨"log", false⟩ false
    ¬ p.SelfOverlaps ∧ ¬ q.SelfOverlaps ∧
      HitsExactly s.documents (fun d => p.Near q d.text.toList 0)
        (s.searchProximity ⟨"island", false⟩ ⟨"log", false⟩ 0) := by
  intro s p q
  have free : ¬ p.SelfOverlaps := by decide +kernel
  have free' : ¬ q.SelfOverlaps := by decide +kernel
  exact ⟨free, free', (searchProximity_exact_iff s ⟨"island", false⟩ ⟨"log", false⟩ 0).2.2 free free'⟩

/-- The scan takes the first two of three logs, and so finds no two logs right in front of the island. -/
theorem searchProximity_log_log :
    let s : Scanner := ⟨[logs], ⟨false, false, 300⟩⟩
    let p := s.pattern ⟨"log log", false⟩ false
    let q := s.pattern ⟨"island", false⟩ false
    let hits := s.searchProximity ⟨"log log", false⟩ ⟨"island", false⟩ 0
    p.Near q logs.text.toList 0 ∧ hits = [] ∧
      ¬ HitsExactly s.documents (fun d => p.Near q d.text.toList 0) hits := by
  intro s p q hits
  have second : p.OccursIn logs.text.toList 4 := ⟨by decide +kernel, by decide +kernel, nofun⟩
  have island : q.OccursIn logs.text.toList 12 := ⟨by decide +kernel, by decide +kernel, nofun⟩
  have near : p.Near q logs.text.toList 0 := ⟨4, 12, second, island, by unfold WithinWords; decide +kernel⟩
  have none : hits = [] := by decide +kernel
  refine ⟨near, none, fun exactly => ?_⟩
  rw [none] at exactly
  have length := List.Forall₂.length_eq exactly
  simp [s, near] at length

/-! ## Pairs and both terms -/

/-- Does some document with a filename hold a term as a whole word? -/
def HoldsWord (t : Term) (f : String) : Prop :=
  ∃ d ∈ s.documents, d.filename = f ∧ ∃ place, (s.pattern t true).OccursIn d.text.toList place

/-- Is a filename found for each of two terms alone, and for both together? -/
def FindsBoth (a b : Term) (f : String) : Prop :=
  f ∈ filesOf (s.search a) ∧ f ∈ filesOf (s.search b) ∧ f ∈ filesOf (s.searchMultiple [a, b] .and)

theorem findsBoth_iff {a b : Term} {f : String} :
    s.FindsBoth a b f ↔ f ∈ filesOf (s.search a) ∧ f ∈ filesOf (s.search b) := by
  unfold FindsBoth
  rw [s.searchMultiple_and (by decide), mem_filesOf_intersect]
  simp only [List.map_cons, List.map_nil, List.mem_singleton, forall_eq]
  tauto

/-- A term is found in the documents in which it occurs, as a whole word if so wished. -/
theorem mem_filesOf_search_iff_occursIn {t : Term} {f : String} :
    f ∈ filesOf (s.search t) ↔ ∃ d ∈ s.documents, d.filename = f ∧
      ∃ place, (s.pattern t s.options.wholeWord).OccursIn d.text.toList place := by
  simp only [mem_filesOf_search, Pattern.spans_ne_nil_iff_occursIn]

/-- The scanner that takes parts of words, and is the same in all else. -/
def takingParts : Scanner := { s with options := { s.options with wholeWord := false } }

theorem searchProximity_takingParts (a b : Term) (n : UInt32) :
    s.takingParts.searchProximity a b n = s.searchProximity a b n := rfl

/-- Without regard to whole words both terms of a pair are found wherever the pair is. -/
theorem findsBoth_of_mem_filesOf_searchProximity (hw : s.options.wholeWord = false) {a b : Term} {n : UInt32}
    {f : String} (hf : f ∈ filesOf (s.searchProximity a b n)) : s.FindsBoth a b f := by
  obtain ⟨d, hd, name, close⟩ := s.mem_filesOf_searchProximity.1 hf
  obtain ⟨i, j, hi, hj, -⟩ := (Pattern.exists_isClose_iff.1 close).near
  rw [findsBoth_iff, mem_filesOf_search_iff_occursIn, mem_filesOf_search_iff_occursIn, hw]
  exact ⟨⟨d, hd, name, i, hi⟩, d, hd, name, j, hj⟩

/-! ### Islands -/

/-- Its island is in the plural. -/
def islands : Document := ⟨1, 1, "a.pdf", "DataSet 1/a.pdf", 1, "islands near Maxwell", some [0]⟩

theorem mem_filesOf_searchProximity_islands (o : Options) :
    "a.pdf" ∈ filesOf ((Scanner.mk [islands] o).searchProximity ⟨"island", false⟩ ⟨"Maxwell", false⟩ 5) := by
  have close : ∀ caseSensitive, ∃ x ∈ (Pattern.mk "island".toList caseSensitive false).spans islands.text.toList,
      ∃ y ∈ (Pattern.mk "Maxwell".toList caseSensitive false).spans islands.text.toList,
        isClose islands.text.toList 5 x y = true := by
    decide +kernel
  rw [mem_filesOf_searchProximity]
  exact ⟨islands, List.mem_singleton.2 rfl, rfl, close o.caseSensitive⟩

theorem not_mem_filesOf_search_islands {o : Options} (hw : o.wholeWord = true) :
    "a.pdf" ∉ filesOf ((Scanner.mk [islands] o).search ⟨"island", false⟩) := by
  have none : ∀ caseSensitive, (Pattern.mk "island".toList caseSensitive true).spans islands.text.toList = [] := by
    decide +kernel
  rw [mem_filesOf_search]
  rintro ⟨d, hd, -, found⟩
  rw [List.mem_singleton.1 hd] at found
  unfold pattern at found
  rw [hw] at found
  exact found (none o.caseSensitive)

/--
With options that do not ask for whole words, and with no others, every search for a pair finds only filenames
that each of its terms finds, and both together. With any options it finds only those that the terms find as
parts of words; and if whole words are asked for, those that the terms find so too exactly if each filename
that it finds has documents with either term as a whole word.
-/
theorem searchProximity_subset_and_iff (o : Options) :
    ((∀ (documents : List Document) (a b : Term) (n : UInt32),
        ∀ f ∈ filesOf ((Scanner.mk documents o).searchProximity a b n), (Scanner.mk documents o).FindsBoth a b f) ↔
      o.wholeWord = false) ∧
    ∀ (documents : List Document) (a b : Term) (n : UInt32),
      let s := Scanner.mk documents o
      (∀ f ∈ filesOf (s.searchProximity a b n), s.takingParts.FindsBoth a b f) ∧
        ((∀ f ∈ filesOf (s.searchProximity a b n), s.FindsBoth a b f) ↔
          (o.wholeWord = true → ∀ f ∈ filesOf (s.searchProximity a b n), s.HoldsWord a f ∧ s.HoldsWord b f)) := by
  refine ⟨⟨fun all => ?_, fun hw documents a b n f hf => ?_⟩, fun documents a b n => ⟨fun f hf => ?_, ?_⟩⟩
  · by_contra hw
    rw [Bool.not_eq_false] at hw
    have both := all [islands] _ _ 5 "a.pdf" (mem_filesOf_searchProximity_islands o)
    exact not_mem_filesOf_search_islands hw both.1
  · exact findsBoth_of_mem_filesOf_searchProximity _ hw hf
  · rw [← searchProximity_takingParts] at hf
    exact findsBoth_of_mem_filesOf_searchProximity _ rfl hf
  · cases hw : o.wholeWord with
    | false => exact ⟨fun _ => nofun, fun _ f hf => findsBoth_of_mem_filesOf_searchProximity _ hw hf⟩
    | true =>
      simp only [findsBoth_iff, mem_filesOf_search_iff_occursIn, hw, true_imp_iff]
      rfl

/-- Whole words are asked for, and the pair is found in a document that does not hold its first term as one. -/
theorem searchProximity_islands :
    let s : Scanner := ⟨[islands], ⟨false, true, 300⟩⟩
    "a.pdf" ∈ filesOf (s.searchProximity ⟨"island", false⟩ ⟨"Maxwell", false⟩ 5) ∧
      "a.pdf" ∉ filesOf (s.search ⟨"island", false⟩) :=
  ⟨mem_filesOf_searchProximity_islands _, not_mem_filesOf_search_islands rfl⟩

end Scanner

end Concordance
