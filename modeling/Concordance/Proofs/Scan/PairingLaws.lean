/-
What the order of two terms and the bound on the words between them do to a search for pairs. Exchanging the terms
exchanges the two places of each pair, so a document has as many pairs as before, and the same contexts unless some
were left out for the limit; and a wider bound gives up no pair.
-/
import Concordance.Proofs.Scan.Pairing
import Concordance.Proofs.Scan.Stricter
import Mathlib.Data.Multiset.Bind

namespace Concordance

open Text Scan

/-- The context with another label. -/
def Context.labelled (label : String) (k : Context) : Context := { k with matched := label }

/-- Are two hits for one and the same document of a list? -/
def SameDocument (documents : List Document) (h h' : Hit) : Prop :=
  ∃ d ∈ documents, h = d.hit h.matchCount h.contexts ∧ h' = d.hit h'.matchCount h'.contexts

/-! ## Exchanging the terms -/

theorem product_swap_perm {α β : Type} (as : List α) (bs : List β) : ((as ×ˢ bs).map Prod.swap).Perm (bs ×ˢ as) := by
  rw [← Multiset.coe_eq_coe, ← Multiset.map_coe, ← Multiset.coe_product, ← Multiset.coe_product,
    Multiset.map_swap_product]

namespace Scan

theorem pairsApart_swap (text : List Char) (n length length' : Nat) (as bs : List Nat) :
    ((pairsApart text n length length' as bs).map Prod.swap).Perm (pairsApart text n length' length bs as) := by
  have filtered := (product_swap_perm as bs).filter fun x =>
    EndsShortlyBefore text n (x.1 + length') x.2 ∨ EndsShortlyBefore text n (x.2 + length) x.1
  rw [List.filter_map] at filtered
  refine List.Perm.trans (List.Perm.of_eq ?_) filtered
  congr 1
  refine List.filter_congr fun x _ => ?_
  rw [Function.comp_apply, Prod.fst_swap, Prod.snd_swap, decide_eq_decide]
  exact or_comm

namespace Pattern

variable {p q : Pattern} {text : List Char} {n m : Nat} {pairs others : List (Nat × Nat)}

theorem PairsUp.perm_swap (h : p.PairsUp q text n pairs) (h' : q.PairsUp p text n others) :
    others.Perm (pairs.map Prod.swap) := by
  obtain ⟨as, bs, has, hbs, rfl⟩ := h
  obtain rfl := h'.unique ⟨bs, as, hbs, has, rfl⟩
  exact (pairsApart_swap ..).symm

/-! ## Widening the bound -/

theorem PairsUp.sublist (h : p.PairsUp q text n pairs) (h' : p.PairsUp q text m others) (wider : n ≤ m) :
    pairs.Sublist others := by
  obtain ⟨as, bs, has, hbs, rfl⟩ := h
  obtain rfl := h'.unique ⟨as, bs, has, hbs, rfl⟩
  have widen {stop start : Nat} (before : EndsShortlyBefore text n stop start) :
      EndsShortlyBefore text m stop start :=
    ⟨before.1, before.2.trans wider⟩
  refine List.monotone_filter_right _ fun x apart => ?_
  rw [decide_eq_true_eq] at apart ⊢
  exact apart.imp widen widen

end Pattern

end Scan

namespace Scanner

theorem pairContextAt_swap (d : Document) (radius : Nat) (label label' : String) (length length' : Nat)
    (x : Nat × Nat) :
    d.pairContextAt radius label' length' length x.swap =
      (d.pairContextAt radius label length length' x).labelled label' := by
  unfold Document.pairContextAt Context.labelled
  dsimp only [Prod.fst_swap, Prod.snd_swap]
  rw [min_comm, max_comm]

variable {s : Scanner} {p q : Pattern} {d : Document}

/-- In each document exchanged patterns find as many pairs, and the same ones if none is left out. -/
theorem rel_findPair?_swap (s : Scanner) (p q : Pattern) (n : Nat) (label label' : String) {d : Document}
    (hd : d ∈ s.documents) :
    Option.Rel
      (fun h h' => SameDocument s.documents h h' ∧ h'.matchCount = h.matchCount ∧
        (h.matchCount < 50 → h'.contexts.Perm (h.contexts.map (·.labelled label'))))
      (s.findPair? p q n label d) (s.findPair? q p n label' d) := by
  obtain ⟨pairs, up, found⟩ := exists_pairsUp_findPair? s p q n label d
  obtain ⟨others, up', found'⟩ := exists_pairsUp_findPair? s q p n label' d
  have perm := up.perm_swap up'
  have length : others.length = pairs.length := by rw [perm.length_eq, List.length_map]
  rw [found, found']
  by_cases none : pairs = []
  · have none' : others = [] := by rwa [← List.length_eq_zero_iff, length, List.length_eq_zero_iff]
    rw [if_pos none, if_pos none']
    exact .none
  · have some' : others ≠ [] := by rwa [ne_eq, ← List.length_eq_zero_iff, length, List.length_eq_zero_iff]
    rw [if_neg none, if_neg some']
    refine .some ⟨⟨d, hd, rfl, rfl⟩, by simp [Document.hit, length], fun few => ?_⟩
    -- below the limit all pairs are listed
    have all : pairs.length ≤ maxPairs := by
      simp only [Document.hit, maxPairs] at few ⊢
      omega
    dsimp only [Document.hit]
    rw [List.take_of_length_le all, List.take_of_length_le (length ▸ all), List.map_map]
    refine (perm.map _).trans (List.Perm.of_eq ?_)
    rw [List.map_map]
    exact List.map_congr_left fun x _ => pairContextAt_swap ..

/-- What is found with one bound is found with a wider one, with no fewer pairs. -/
theorem exists_findPair?_of_le {n m : Nat} (wider : n ≤ m) {label : String} (hd : d ∈ s.documents) {h : Hit}
    (hh : s.findPair? p q n label d = some h) :
    ∃ h', s.findPair? p q m label d = some h' ∧ SameDocument s.documents h h' ∧ h.matchCount ≤ h'.matchCount := by
  obtain ⟨pairs, up, some, rfl⟩ := exists_pairsUp_of_findPair? hh
  obtain ⟨more, moreUp, found⟩ := exists_pairsUp_findPair? s p q m label d
  have sub := up.sublist moreUp wider
  have some' : more ≠ [] := fun none => some (List.sublist_nil.1 (none ▸ sub))
  rw [if_neg some'] at found
  refine ⟨_, found, ⟨d, hd, rfl, rfl⟩, ?_⟩
  exact min_le_min_left maxPairs sub.length_le

/--
Searched for in either order, two terms are found in the same documents, in the same order and with as many pairs, and
unless pairs were left out for the limit with the same contexts but for their label. With a wider bound each document
that is found is found again, with no fewer pairs.
-/
theorem searchProximity_symmetric_monotone (s : Scanner) (a b : Term) {n m : UInt32} (wider : n ≤ m) :
    List.Forall₂
        (fun h h' => SameDocument s.documents h h' ∧ h'.matchCount = h.matchCount ∧
          (h.matchCount < 50 → h'.contexts.Perm (h.contexts.map (·.labelled (b.text ++ "..." ++ a.text)))))
        (s.searchProximity a b n) (s.searchProximity b a n) ∧
      List.SublistForall₂ (fun h h' => SameDocument s.documents h h' ∧ h.matchCount ≤ h'.matchCount)
        (s.searchProximity a b n) (s.searchProximity a b m) := by
  constructor
  · have each : List.Forall₂ (fun d e => d = e ∧ d ∈ s.documents) s.documents s.documents :=
      List.forall₂_same.2 fun d hd => ⟨rfl, hd⟩
    refine List.rel_filterMap ?_ each
    rintro d _ ⟨rfl, hd⟩
    exact rel_findPair?_swap s _ _ _ _ _ hd
  · exact sublistForall₂_filterMap fun d hd h hh => exists_findPair?_of_le (UInt32.le_iff_toNat_le.1 wider) hd hh

/-- Its logs and islands stand next to each other or further apart. -/
def loggedIslands : Document := ⟨1, 1, "a.pdf", "DataSet 1/a.pdf", 1, "log island log boat island", some [0]⟩

/-- Without words between there are two pairs, whichever term comes first, and with up to three words there are four. -/
theorem searchProximity_log_or_island_first :
    let s : Scanner := ⟨[loggedIslands], ⟨false, false, 4⟩⟩
    let log : Term := ⟨"log", false⟩
    let island : Term := ⟨"island", true⟩
    let counts := fun hits : List Hit => hits.map (·.matchCount)
    (0 : UInt32) ≤ 3 ∧ counts (s.searchProximity log island 0) = [2] ∧ counts (s.searchProximity log island 3) = [4] ∧
      List.Forall₂
        (fun h h' => SameDocument s.documents h h' ∧ h'.matchCount = h.matchCount ∧
          (h.matchCount < 50 → h'.contexts.Perm (h.contexts.map (·.labelled "island...log"))))
        (s.searchProximity log island 0) (s.searchProximity island log 0) := by
  intro s log island counts
  have wider : (0 : UInt32) ≤ 3 := by decide
  exact ⟨wider, by decide +kernel, by decide +kernel, (searchProximity_symmetric_monotone s log island wider).1⟩

end Scanner

end Concordance
