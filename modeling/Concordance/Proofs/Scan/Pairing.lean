/-
What a search for pairs reports. It pairs the occurrences that a scan lists for the first term with those that a scan
lists for the second, those of the first term's first occurrence in front, and keeps the pairs that stand apart with
few words between. A document has a hit if there are such pairs; the hit lists the first fifty, each from where the
earlier occurrence starts to where the later one ends.
-/
import Concordance.Proofs.Scan.Listing
import Concordance.Proofs.Scan.Proximity

namespace Concordance

open Text Scan

/-! ## Runs that stand apart -/

namespace Scan

/-- Does a run that ends at `stop` end before one that starts at `start`, with few words between the two? -/
def EndsShortlyBefore (text : List Char) (maxWords stop start : Nat) : Prop :=
  stop < start ∧ (words ((text.drop stop).take (start - stop))).length ≤ maxWords

instance (text : List Char) (maxWords stop start : Nat) : Decidable (EndsShortlyBefore text maxWords stop start) :=
  inferInstanceAs (Decidable (_ ∧ _))

theorem not_endsShortlyBefore {text : List Char} {n stop start : Nat} (h : start ≤ stop) :
    ¬ EndsShortlyBefore text n stop start :=
  fun before => absurd before.1 (Nat.not_lt.2 h)

/--
The pairs of a place in the one list and a place in the other whose runs, so many characters long, stand apart with
at most so many words between. The pairs of the first place of the one list come first.
-/
def pairsApart (text : List Char) (maxWords length length' : Nat) (as bs : List Nat) : List (Nat × Nat) :=
  (as ×ˢ bs).filter fun x =>
    EndsShortlyBefore text maxWords (x.1 + length) x.2 ∨ EndsShortlyBefore text maxWords (x.2 + length') x.1

end Scan

namespace Scanner

variable {text : List Char} {n i length j length' : Nat}

theorem withinWords_comm : WithinWords text n i length j length' ↔ WithinWords text n j length' i length := by
  unfold WithinWords
  rw [min_comm, max_comm]

theorem withinWords_iff_of_le (h : i ≤ j) :
    WithinWords text n i length j length' ↔ EndsShortlyBefore text n (i + length) j := by
  by_cases apart : i + length < j
  · have ends : min (i + length) (j + length') = i + length := by omega
    have starts : max i j = j := max_eq_right h
    unfold WithinWords EndsShortlyBefore
    rw [ends, starts]
  · refine iff_of_false (fun within => apart ?_) fun before => apart before.1
    have := within.1
    omega

/-- Two runs are apart if one of them ends before the other one starts: they do not touch, overlap or nest. -/
theorem withinWords_iff :
    WithinWords text n i length j length' ↔
      EndsShortlyBefore text n (i + length) j ∨ EndsShortlyBefore text n (j + length') i := by
  rcases Nat.le_total i j with h | h
  · rw [withinWords_iff_of_le h, or_iff_left (not_endsShortlyBefore (h.trans (Nat.le_add_right j length')))]
  · rw [withinWords_comm, withinWords_iff_of_le h,
      or_iff_right (not_endsShortlyBefore (h.trans (Nat.le_add_right i length)))]

end Scanner

/-! ## Pairs of occurrences -/

namespace Scan.Pattern

variable {p q : Pattern} {text : List Char} {n : Nat}

/--
Are these all pairs of an occurrence listed for the one pattern and one listed for the other that stand apart with at
most so many words between?
-/
def PairsUp (p q : Pattern) (text : List Char) (maxWords : Nat) (pairs : List (Nat × Nat)) : Prop :=
  ∃ as bs, p.IsListing text as ∧ q.IsListing text bs ∧
    pairs = pairsApart text maxWords p.letters.length q.letters.length as bs

theorem PairsUp.unique {pairs others : List (Nat × Nat)} (h : p.PairsUp q text n pairs)
    (h' : p.PairsUp q text n others) : pairs = others := by
  obtain ⟨as, bs, has, hbs, rfl⟩ := h
  obtain ⟨as', bs', has', hbs', rfl⟩ := h'
  rw [has.findsFrom.unique has'.findsFrom, hbs.findsFrom.unique hbs'.findsFrom]

/-- Both occurrences of a pair lie inside the text. -/
theorem PairsUp.inside {pairs : List (Nat × Nat)} (h : p.PairsUp q text n pairs) {x : Nat × Nat} (hx : x ∈ pairs) :
    x.1 + p.letters.length ≤ text.length ∧ x.2 + q.letters.length ≤ text.length := by
  obtain ⟨as, bs, has, hbs, rfl⟩ := h
  obtain ⟨i, j⟩ := x
  obtain ⟨hi, hj⟩ := List.mem_product.1 (List.mem_filter.1 hx).1
  exact ⟨(has.occur i hi).inside, (hbs.occur j hj).inside⟩

theorem product_map {α β γ δ : Type} (f : α → γ) (g : β → δ) (as : List α) (bs : List β) :
    as.map f ×ˢ bs.map g = (as ×ˢ bs).map (Prod.map f g) := by
  simp only [SProd.sprod, List.product, List.flatMap_map, List.map_flatMap, List.map_map]
  rfl

/-- The pairs of spans that are looked at are those of the pairs of occurrences, up to the limit. -/
theorem exists_pairsUp (p q : Pattern) (text : List Char) (maxWords : Nat) :
    ∃ pairs, p.PairsUp q text maxWords pairs ∧ ∀ limit,
      Scanner.closePairs (Scanner.isClose text maxWords) limit (p.spans text) (q.spans text) =
        (pairs.take limit).map fun x => (spanAt text x.1 p.letters.length, spanAt text x.2 q.letters.length) := by
  obtain ⟨as, has, spansA⟩ := p.exists_findsFrom text
  obtain ⟨bs, hbs, spansB⟩ := q.exists_findsFrom text
  refine ⟨_, ⟨as, bs, has.isListing, hbs.isListing, rfl⟩, fun limit => ?_⟩
  rw [spansA, spansB, Scanner.closePairs_eq_take, product_map, List.filter_map, ← List.map_take, pairsApart]
  refine congrArg (List.map _) (congrArg (List.take limit) (List.filter_congr fun (i, j) hx => ?_))
  obtain ⟨hi, hj⟩ := List.mem_product.1 hx
  rw [Bool.eq_iff_iff, decide_eq_true_eq, ← Scanner.withinWords_iff]
  exact isClose_spanAt_iff (has.occursIn_of_mem i hi) (hbs.occursIn_of_mem j hj)

end Scan.Pattern

/-! ## The contexts of pairs -/

/--
The context of a pair of runs of a document's text, which bears a label: where the earlier run starts, the window
around all from there to where the later one ends, and the page of the place.
-/
def Document.pairContextAt (d : Document) (radius : Nat) (label : String) (length length' : Nat) (x : Nat × Nat) :
    Context :=
  let start := min x.1 x.2
  let stop := max (x.1 + length) (x.2 + length')
  ⟨start, String.ofList (window d.text.toList start stop radius), label, d.pageAt? start⟩

namespace Scanner

theorem hull_spanAt (text : List Char) (i length j length' : Nat) :
    hull (spanAt text i length) (spanAt text j length') =
      ⟨byteLength (text.take (min i j)), byteLength (text.take (max (i + length) (j + length')))⟩ := by
  rw [byteLength_take_min, byteLength_take_max]
  rfl

/-- The contexts of the hulls of runs are those of the pairs of runs. -/
theorem contexts_hulls (d : Document) (radius : Nat) (label : String) {length length' : Nat}
    {pairs : List (Nat × Nat)}
    (inside : ∀ x ∈ pairs, x.1 + length ≤ d.text.toList.length ∧ x.2 + length' ≤ d.text.toList.length) :
    contexts d radius ((pairs.map fun x =>
        (spanAt d.text.toList x.1 length, spanAt d.text.toList x.2 length')).map fun y => (hull y.1 y.2, label)) =
      pairs.map (d.pairContextAt radius label length length') := by
  rw [contexts_eq_map, List.map_map, List.map_map]
  refine List.map_congr_left fun x hx => ?_
  obtain ⟨hi, hj⟩ := inside x hx
  have around : excerpt d.text.toList ⟨byteLength (d.text.toList.take (min x.1 x.2)),
      byteLength (d.text.toList.take (max (x.1 + length) (x.2 + length')))⟩ radius = _ :=
    excerpt_eq_window (by omega) (by omega) radius
  rw [← hull_spanAt] at around
  dsimp only [Function.comp]
  rw [length_takeBytes_hull (by omega) (by omega), around, Document.pairContextAt]

/-! ## The hit for a document -/

theorem exists_pairsUp_findPair? (s : Scanner) (p q : Pattern) (n : Nat) (label : String) (d : Document) :
    ∃ pairs, p.PairsUp q d.text.toList n pairs ∧
      s.findPair? p q n label d =
        if pairs = [] then none
        else some (d.hit (min maxPairs pairs.length) ((pairs.take maxPairs).map
          (d.pairContextAt s.options.contextChars label p.letters.length q.letters.length))) := by
  obtain ⟨pairs, up, listed⟩ := p.exists_pairsUp q d.text.toList n
  refine ⟨pairs, up, ?_⟩
  have none : pairs.take maxPairs = [] ↔ pairs = [] := by simp [maxPairs]
  rw [findPair?, hit?, listed, contexts_hulls d _ label fun x hx => up.inside (List.mem_of_mem_take hx)]
  simp only [List.isEmpty_map, List.isEmpty_iff, List.length_map, List.length_take, none]

variable {s : Scanner} {p q : Pattern} {n : Nat} {label : String} {d : Document}

/-- The hit for two patterns in a document lists the pairs that there are. -/
theorem exists_pairsUp_of_findPair? {h : Hit} (hh : s.findPair? p q n label d = some h) :
    ∃ pairs, p.PairsUp q d.text.toList n pairs ∧ pairs ≠ [] ∧
      h = d.hit (min maxPairs pairs.length) ((pairs.take maxPairs).map
        (d.pairContextAt s.options.contextChars label p.letters.length q.letters.length)) := by
  obtain ⟨pairs, up, found⟩ := exists_pairsUp_findPair? s p q n label d
  rw [found, Option.ite_none_left_eq_some, Option.some_inj] at hh
  exact ⟨pairs, up, hh.1, hh.2.symm⟩

/-- There is a hit for two patterns in a document exactly if they pair up there. -/
theorem findPair?_ne_none_iff_pairsUp :
    s.findPair? p q n label d ≠ none ↔ ∃ pairs, p.PairsUp q d.text.toList n pairs ∧ pairs ≠ [] := by
  rw [Option.ne_none_iff_exists']
  constructor
  · rintro ⟨h, hh⟩
    obtain ⟨pairs, up, some, -⟩ := exists_pairsUp_of_findPair? hh
    exact ⟨pairs, up, some⟩
  · rintro ⟨pairs, up, some⟩
    obtain ⟨others, up', found⟩ := exists_pairsUp_findPair? s p q n label d
    rw [if_neg (up.unique up' ▸ some)] at found
    exact ⟨_, found⟩

/-! ## The hits of a search -/

open Classical in
/--
In each document the occurrences listed for two terms, parts of words included, pair up in exactly one way. A search
for pairs has one hit for each document in which there are such pairs, in the order of the documents, and no others.
The hit counts and lists the first fifty pairs.
-/
theorem searchProximity_lists (s : Scanner) (a b : Term) (n : UInt32) :
    let p := s.pattern a false
    let q := s.pattern b false
    (∀ d : Document, ∃! pairs, p.PairsUp q d.text.toList n.toNat pairs) ∧
      List.Forall₂
        (fun d h => ∃ pairs, p.PairsUp q d.text.toList n.toNat pairs ∧
          h = d.hit (min 50 pairs.length) ((pairs.take 50).map
            (d.pairContextAt s.options.contextChars (a.text ++ "..." ++ b.text) a.text.toList.length
              b.text.toList.length)))
        (s.documents.filter fun d => ∃ pairs, p.PairsUp q d.text.toList n.toNat pairs ∧ pairs ≠ [])
        (s.searchProximity a b n) := by
  intro p q
  constructor
  · intro d
    obtain ⟨pairs, up, -⟩ := p.exists_pairsUp q d.text.toList n.toNat
    exact ⟨pairs, up, fun others up' => up'.unique up⟩
  · refine forall₂_filterMap (fun d h hh => ?_) (fun d => findPair?_ne_none_iff_pairsUp) s.documents
    obtain ⟨pairs, up, -, hit⟩ := exists_pairsUp_of_findPair? hh
    exact ⟨pairs, up, hit⟩

/-- Of three logs each is paired with its neighbours on both sides, but not with itself or with the next but one. -/
example :
    let d : Document := ⟨1, 1, "a.pdf", "DataSet 1/a.pdf", 1, "log log log", some [0]⟩
    (Scanner.mk [d] ⟨false, false, 0⟩).searchProximity ⟨"log", false⟩ ⟨"LOG", false⟩ 0 =
      [d.hit 4 [⟨0, "log log...", "log...LOG", some 1⟩, ⟨0, "log log...", "log...LOG", some 1⟩,
        ⟨4, "...log log", "log...LOG", some 1⟩, ⟨4, "...log log", "log...LOG", some 1⟩]] := by
  decide +kernel

end Scanner

end Concordance
