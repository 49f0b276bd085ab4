/-
Pairs by their neighbours. What taking the pairs out of a token list makes of a token depends on nothing but the
tokens around it: a NEAR takes a pair if an operand or another NEAR is right before it and an operand right behind
it, and the tokens beside a NEAR that takes a pair are used up. All others stay.
-/
import Concordance.Proofs.Query.Pairs

namespace Concordance.Query

/-- What a token is outside a pair: a NEAR is a word of its own spelling. -/
def Token.unpaired : Token → Token
  | near _ s => word s
  | t => t

/-- The token right before a place. -/
def previous? (ts : List Token) : Nat → Option Token
  | 0 => none
  | i + 1 => ts[i]?

/-- Is there a NEAR at a place with an operand or a NEAR right before it and an operand right behind it? -/
def isPaired (ts : List Token) (i : Nat) : Bool :=
  (previous? ts i).any (fun t => t.isOperand || t.isNear) && ts[i]?.any Token.isNear && ts[i + 1]?.any Token.isOperand

/-- The pair of the NEAR at a place, if it takes one. -/
def pairAt? (ts : List Token) (i : Nat) : Option ProximityPair :=
  if isPaired ts i then
    match previous? ts i, ts[i]?, ts[i + 1]? with
    | some left, some (.near d _), some right => some ⟨left.unpaired.term, right.term, d⟩
    | _, _, _ => none
  else none

/-- The distance of the NEAR at a place, if it takes no pair. -/
def looseAt? (ts : List Token) (i : Nat) : Option UInt32 :=
  match ts[i]? with
  | some (.near d _) => if isPaired ts i then none else some d
  | _ => none

/-- The token at a place, unless it is a NEAR that takes a pair or is beside one. -/
def keptAt? (ts : List Token) (i : Nat) : Option Token :=
  if isPaired ts i || isPaired ts (i - 1) || isPaired ts (i + 1) then none else ts[i]?.map Token.unpaired

/-- What `n` places from one on give. -/
def extractionAt (ts : List Token) (i n : Nat) : Extraction :=
  ⟨(List.range' i n).filterMap (keptAt? ts), (List.range' i n).filterMap (pairAt? ts),
    (List.range' i n).filterMap (looseAt? ts)⟩

variable {ts before rest : List Token} {chained : Option Term} {i : Nat} {t : Token}

/-! ## Places -/

theorem extractionAt_succ (ts : List Token) (i n : Nat) :
    extractionAt ts i (n + 1) =
      ⟨(keptAt? ts i).toList ++ (extractionAt ts (i + 1) n).stream,
        (pairAt? ts i).toList ++ (extractionAt ts (i + 1) n).pairs,
        (looseAt? ts i).toList ++ (extractionAt ts (i + 1) n).dangling⟩ := by
  have step {α : Type} (f : Nat → Option α) :
      (List.range' i (n + 1)).filterMap f = (f i).toList ++ (List.range' (i + 1) n).filterMap f := by
    rw [List.range'_succ, List.filterMap_cons]
    cases f i <;> rfl
  simp only [extractionAt, step]

theorem isPaired_of_not_near (ht : ts[i]? = some t) (h : t.isNear = false) : isPaired ts i = false := by
  simp [isPaired, ht, h]

theorem pairAt?_of_not_paired (h : isPaired ts i = false) : pairAt? ts i = none := by
  rw [pairAt?, h, if_neg Bool.false_ne_true]

theorem looseAt?_of_not_near (ht : ts[i]? = some t) (h : t.isNear = false) : looseAt? ts i = none := by
  unfold looseAt?
  rw [ht]
  cases t <;> first | rfl | cases h

theorem exists_eq_near (h : t.isNear = true) : ∃ d s, t = .near d s := by
  cases t <;> first | exact ⟨_, _, rfl⟩ | cases h

/-- What is around a NEAR that takes a pair, and what the pair is. -/
theorem exists_pairAt? (h : isPaired ts i = true) :
    ∃ l d s r, previous? ts i = some l ∧ ts[i]? = some (.near d s) ∧ ts[i + 1]? = some r ∧ r.isOperand = true ∧
      pairAt? ts i = some ⟨l.unpaired.term, r.term, d⟩ := by
  have around := h
  rw [isPaired, Bool.and_eq_true, Bool.and_eq_true, Option.any_eq_true, Option.any_eq_true,
    Option.any_eq_true] at around
  obtain ⟨⟨⟨l, hl, -⟩, t, ht, hn⟩, r, hr, ho⟩ := around
  obtain ⟨d, s, rfl⟩ := exists_eq_near hn
  exact ⟨l, d, s, r, hl, ht, hr, ho, by rw [pairAt?, h, if_pos rfl, hl, ht, hr]⟩

theorem keptAt?_of_paired (h : isPaired ts i = true) : keptAt? ts i = none := by
  simp [keptAt?, h]

theorem looseAt?_of_paired (h : isPaired ts i = true) : looseAt? ts i = none := by
  obtain ⟨l, d, s, r, -, ht, -, -, -⟩ := exists_pairAt? h
  simp [looseAt?, ht, h]

/-- An operand right behind a NEAR that takes a pair is used up. -/
theorem keptAt?_succ_of_paired (h : isPaired ts i = true) : keptAt? ts (i + 1) = none := by
  simp [keptAt?, h]

theorem unpaired_of_not_near (h : t.isNear = false) : t.unpaired = t := by
  cases t <;> first | rfl | cases h

theorem isOperand_unpaired (t : Token) : t.unpaired.isOperand = (t.isOperand || t.isNear) := by
  cases t <;> rfl

/-! ## From place to place -/

/-- The left operand that a NEAR at a place finds: an operand, or a NEAR that has become a word. -/
def leftTerm? (ts : List Token) (i : Nat) : Option Term :=
  (previous? ts i).bind fun t => if t.isOperand || t.isNear then some t.unpaired.term else none

/-- Taking pairs has come to a place with `rest` before it, and the token there is not used up by the last pair. -/
structure Reaches (ts : List Token) (i : Nat) (before : List Token) (chained : Option Term) (rest : List Token) :
    Prop where
  ahead : ts.drop i = rest
  fresh : isPaired ts (i - 1) = false
  left : (leftOperand? chained before).map Prod.fst = leftTerm? ts i

theorem reaches_start (ts : List Token) : Reaches ts 0 [] none ts := ⟨rfl, rfl, rfl⟩

theorem Reaches.here (h : Reaches ts i before chained (t :: rest)) : ts[i]? = some t := by
  rw [← List.head?_drop, h.ahead, List.head?_cons]

theorem Reaches.drop_succ (h : Reaches ts i before chained (t :: rest)) : ts.drop (i + 1) = rest := by
  rw [← List.tail_drop, h.ahead, List.tail_cons]

theorem Reaches.next (h : Reaches ts i before chained (t :: rest)) : ts[i + 1]? = rest.head? := by
  rw [← List.head?_drop, h.drop_succ]

/-- A left operand is at hand exactly where a NEAR may find one. -/
theorem Reaches.isSome_leftOperand? (h : Reaches ts i before chained rest) :
    (leftOperand? chained before).isSome = (previous? ts i).any fun t => t.isOperand || t.isNear := by
  rw [← Option.isSome_map (f := Prod.fst), h.left, leftTerm?]
  cases previous? ts i with
  | none => rfl
  | some l =>
    rw [Option.bind_some, Option.any_some]
    cases l.isOperand || l.isNear <;> rfl

/-- Whether the NEAR at hand takes a pair is told by its neighbours. -/
theorem Reaches.isPaired_eq (h : Reaches ts i before chained (t :: rest)) :
    isPaired ts i = ((leftOperand? chained before).isSome && t.isNear && rest.head?.any Token.isOperand) := by
  rw [isPaired, h.isSome_leftOperand?, h.here, h.next, Option.any_some]

/-- A token that takes no pair is passed, as a word if it is a NEAR. -/
theorem Reaches.pass (h : Reaches ts i before chained (t :: rest)) (hp : isPaired ts i = false) :
    Reaches ts (i + 1) (t.unpaired :: before) none rest ∧
      extract before chained (t :: rest) =
        { extract (t.unpaired :: before) none rest with
          dangling := (looseAt? ts i).toList ++ (extract (t.unpaired :: before) none rest).dangling } := by
  have left : (leftOperand? none (t.unpaired :: before)).map Prod.fst = leftTerm? ts (i + 1) := by
    rw [leftTerm?, previous?, h.here, Option.bind_some, ← isOperand_unpaired]
    cases ho : t.unpaired.isOperand <;> simp [leftOperand?, ho]
  refine ⟨⟨h.drop_succ, hp, left⟩, ?_⟩
  cases hn : t.isNear with
  | false =>
    rw [extract_cons hn, unpaired_of_not_near hn, looseAt?_of_not_near h.here hn]
    rfl
  | true =>
    obtain ⟨d, s, rfl⟩ := exists_eq_near hn
    have some : looseAt? ts i = some d := by
      simp [looseAt?, h.here, hp]
    rw [some]
    cases rest with
    | nil => rfl
    | cons right rest =>
      have taken := h.isPaired_eq
      rw [hp, hn, Bool.and_true, List.head?_cons, Option.any_some] at taken
      cases hright : right.isOperand with
      | false =>
        rw [extract, hright, if_neg Bool.false_ne_true]
        rfl
      | true =>
        rw [hright, Bool.and_true, eq_comm, Option.isSome_eq_false_iff, Option.isNone_iff_eq_none] at taken
        rw [extract, hright, if_pos rfl, taken, extract_cons (Token.isNear_of_isOperand hright)]
        rfl

/-- A NEAR that takes a pair uses up the tokens beside it. -/
theorem Reaches.take (h : Reaches ts i before chained (t :: rest)) (hp : isPaired ts i = true) :
    ∃ right rest' first before' p, rest = right :: rest' ∧ right.isOperand = true ∧
      leftOperand? chained before = some (first, before') ∧ pairAt? ts i = some p ∧
        Reaches ts (i + 2) before' (some right.term) rest' ∧
          extract before chained (t :: rest) = (extract before' (some right.term) rest').addPair p := by
  obtain ⟨l, d, s, right, hl, ht, next, hright, pair⟩ := exists_pairAt? hp
  rw [h.here, Option.some_inj] at ht
  subst ht
  obtain ⟨rest', rfl⟩ : ∃ rest', rest = right :: rest' := List.head?_eq_some_iff.1 (h.next.symm.trans next)
  have ready := h.isPaired_eq
  rw [hp, eq_comm, Bool.and_eq_true, Bool.and_eq_true] at ready
  obtain ⟨⟨first, before'⟩, hleft⟩ := Option.isSome_iff_exists.1 ready.1.1
  have spelled : first = l.unpaired.term := by
    have left := h.left
    rw [hleft, Option.map_some, leftTerm?, hl, Option.bind_some] at left
    split at left
    · exact Option.some_inj.1 left
    · cases left
  have ahead : ts.drop (i + 2) = rest' := by
    rw [← List.tail_drop, h.drop_succ, List.tail_cons]
  have fresh : isPaired ts (i + 1) = false := isPaired_of_not_near next (Token.isNear_of_isOperand hright)
  have left : some right.term = leftTerm? ts (i + 2) := by
    rw [leftTerm?, previous?, next, Option.bind_some, hright, Bool.true_or, if_pos rfl,
      unpaired_of_not_near (Token.isNear_of_isOperand hright)]
  refine ⟨right, rest', first, before', _, rfl, hright, hleft, pair, ⟨ahead, fresh, left⟩, ?_⟩
  rw [extract, if_pos hright, hleft, ← spelled]

/-! ## All places -/

/-- The tokens that stay of those before a place: a pair taken there uses up the last one. -/
def settled (ts : List Token) (i : Nat) (before : List Token) (chained : Option Term) : List Token :=
  match leftOperand? chained before with
  | some (_, before') => if isPaired ts i then before' else before
  | none => before

theorem settled_of_not_paired (h : isPaired ts i = false) : settled ts i before chained = before := by
  unfold settled
  split
  · rw [h, if_neg Bool.false_ne_true]
  · rfl

/-- A token that was passed stays unless the next one takes it into a pair. -/
theorem Reaches.settled_pass (h : Reaches ts i before chained (t :: rest)) (hp : isPaired ts i = false) :
    (settled ts (i + 1) (t.unpaired :: before) none).reverse = before.reverse ++ (keptAt? ts i).toList := by
  have kept : keptAt? ts i = if isPaired ts (i + 1) then none else some t.unpaired := by
    rw [keptAt?, hp, h.fresh, h.here, Bool.false_or, Bool.false_or, Option.map_some]
  rw [kept]
  cases hn : isPaired ts (i + 1) with
  | false =>
    rw [settled_of_not_paired hn]
    simp
  | true =>
    -- then there is a left operand at hand, which is the token
    have left : t.unpaired.isOperand = true := by
      rw [isPaired, previous?, h.here, Option.any_some, Bool.and_eq_true, Bool.and_eq_true] at hn
      rw [isOperand_unpaired]
      exact hn.1.1
    simp [settled, leftOperand?, left, hn]

/-- Behind a pair the tokens that stayed are settled. -/
theorem settled_take {first : Term} {before' : List Token} (hleft : leftOperand? chained before = some (first, before'))
    (hp : isPaired ts i = true) (right : Term) (j : Nat) :
    settled ts i before chained = settled ts j before' (some right) := by
  have chain : leftOperand? (some right) before' = some (right, before') := rfl
  simp [settled, chain, hleft, hp]

/-- From any place on, the extraction is what the places there give, behind the tokens that stay. -/
theorem Reaches.extract_eq {i : Nat} {before : List Token} {chained : Option Term} {rest : List Token}
    (h : Reaches ts i before chained rest) :
    extract before chained rest =
      { extractionAt ts i rest.length with
        stream := (settled ts i before chained).reverse ++ (extractionAt ts i rest.length).stream } := by
  match rest with
  | [] =>
    have none : isPaired ts i = false := by
      have last : ts[i]? = Option.none := by
        rw [← List.head?_drop, h.ahead, List.head?_nil]
      simp [isPaired, last]
    rw [settled_of_not_paired none]
    simp [extract, extractionAt]
  | t :: rest =>
    cases hp : isPaired ts i with
    | false =>
      obtain ⟨next, step⟩ := h.pass hp
      rw [step, next.extract_eq, h.settled_pass hp, settled_of_not_paired hp, List.length_cons, extractionAt_succ,
        pairAt?_of_not_paired hp]
      simp
    | true =>
      -- neither the NEAR nor the operand behind it stays, and the operand gives no pair
      obtain ⟨right, rest', first, before', p, rfl, hright, hleft, pair, next, step⟩ := h.take hp
      have beside : ts[i + 1]? = some right := h.next
      have other : right.isNear = false := Token.isNear_of_isOperand hright
      rw [step, next.extract_eq, settled_take hleft hp right.term (i + 2), List.length_cons, List.length_cons,
        extractionAt_succ, extractionAt_succ, keptAt?_of_paired hp, looseAt?_of_paired hp, pair,
        keptAt?_succ_of_paired hp, pairAt?_of_not_paired (isPaired_of_not_near beside other),
        looseAt?_of_not_near beside other]
      rfl
termination_by rest.length

theorem extract_eq (ts : List Token) : extract [] none ts = extractionAt ts 0 ts.length := (reaches_start ts).extract_eq

/-! ## Operands -/

/-- Does the pair of the NEAR at `j` take the token at `i`, on its left or on its right? -/
def TakesAt (ts : List Token) (j i : Nat) (t : Token) : Prop :=
  ∃ p, pairAt? ts j = some p ∧ (j = i + 1 ∧ p.first = t.term ∨ i = j + 1 ∧ p.second = t.term)

theorem takesAt_iff {j : Nat} (ht : ts[i]? = some t) (ho : t.isOperand = true) :
    TakesAt ts j i t ↔ isPaired ts j = true ∧ (j = i + 1 ∨ i = j + 1) := by
  constructor
  · rintro ⟨p, hp, side⟩
    have paired : isPaired ts j = true := by
      by_contra none
      rw [pairAt?_of_not_paired (Bool.eq_false_iff.2 none)] at hp
      cases hp
    exact ⟨paired, side.imp And.left And.left⟩
  · rintro ⟨paired, side⟩
    obtain ⟨l, d, s, r, hl, -, hr, -, pair⟩ := exists_pairAt? paired
    refine ⟨_, pair, side.imp (fun h => ⟨h, ?_⟩) fun h => ⟨h, ?_⟩⟩
    · rw [h, previous?, ht, Option.some_inj] at hl
      rw [← hl, unpaired_of_not_near (Token.isNear_of_isOperand ho)]
    · rw [← h, ht, Option.some_inj] at hr
      rw [hr]

/-- An operand stays exactly if no pair takes it. -/
theorem keptAt?_operand (ht : ts[i]? = some t) (ho : t.isOperand = true) :
    keptAt? ts i = some t ∧ (∀ j, ¬ TakesAt ts j i t) ∨ keptAt? ts i = none ∧ ∃ j, TakesAt ts j i t := by
  simp only [takesAt_iff ht ho]
  have other : t.isNear = false := Token.isNear_of_isOperand ho
  have here : isPaired ts i = false := isPaired_of_not_near ht other
  cases hl : isPaired ts (i - 1) with
  | true =>
    -- there is no place before the first one
    have second : i = i - 1 + 1 := by
      rcases Nat.eq_zero_or_pos i with rfl | hi
      · rw [Nat.zero_sub, here] at hl
        cases hl
      · omega
    exact .inr ⟨by simp [keptAt?, hl], i - 1, hl, .inr second⟩
  | false =>
    cases hr : isPaired ts (i + 1) with
    | true => exact .inr ⟨by simp [keptAt?, hr], i + 1, hr, .inl rfl⟩
    | false =>
      refine .inl ⟨by simp [keptAt?, here, hl, hr, ht, unpaired_of_not_near other], ?_⟩
      rintro j ⟨hj, rfl | rfl⟩
      · rw [hr] at hj
        cases hj
      · rw [Nat.add_sub_cancel, hj] at hl
        cases hl

/--
For every token list: in order, each NEAR with an operand or a NEAR right before it and an operand right behind it
gives the pair of these two, each other NEAR a warning of its distance, and each token that neither is nor stands
beside such a NEAR stays, as a word if it is a NEAR. So an operand either stays or is in a pair, and it is in two only
if it is the right one of the first and the left one of the second.
-/
theorem extract_by_neighbours (ts : List Token) :
    (extract [] none ts).pairs = (List.range ts.length).filterMap (pairAt? ts) ∧
      (extract [] none ts).dangling.map Warning.danglingNear =
        (List.range ts.length).filterMap (fun i => (looseAt? ts i).map Warning.danglingNear) ∧
      (extract [] none ts).stream = (List.range ts.length).filterMap (keptAt? ts) ∧
      ∀ i t, ts[i]? = some t → t.isOperand = true →
        (keptAt? ts i = some t ∧ (∀ j, ¬ TakesAt ts j i t) ∨ keptAt? ts i = none ∧ ∃ j, TakesAt ts j i t) ∧
          ∀ j k, j < k → TakesAt ts j i t → TakesAt ts k i t → i = j + 1 ∧ k = i + 1 := by
  rw [extract_eq, List.range_eq_range']
  refine ⟨rfl, List.map_filterMap, rfl, fun i t ht ho => ⟨keptAt?_operand ht ho, ?_⟩⟩
  intro j k hlt hj hk
  have first := ((takesAt_iff ht ho).1 hj).2
  have second := ((takesAt_iff ht ho).1 hk).2
  omega

end Concordance.Query
