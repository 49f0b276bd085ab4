/-
What the warning about a leading NOT says. It is about the tokens that the pairs leave, so it comes whenever the
tokens before the first NOT are all used up by pairs. Then no primary term is left, and the plan finds what its
pairs find. It finds nothing, and the query starts with NOT, exactly if there are no pairs.
-/
import Concordance.Proofs.Engine.Evaluate
import Concordance.Proofs.Query.WellFormed

namespace Concordance

open Text

namespace Query

variable {ts : List Token} {i : Nat} {t : Token}

/-! ## What pairs leave of a NOT -/

theorem any_isNot_iff {o : Option Token} : o.any Token.isNot = true ↔ ∃ s, o = some (.not s) := by
  cases o with
  | none => simp
  | some t => cases t <;> simp [Token.isNot]

/-- A token that NEAR can join with nothing stays. -/
theorem keptAt?_of_not_joined (ht : ts[i]? = some t) (ho : t.isOperand = false) (hn : t.isNear = false) :
    keptAt? ts i = some t := by
  have here : isPaired ts i = false := isPaired_of_not_near ht hn
  have next : isPaired ts (i + 1) = false := by
    simp [isPaired, previous?, ht, ho, hn]
  have last : isPaired ts (i - 1) = false := by
    cases i with
    | zero => exact here
    | succ i => simp [isPaired, ht, ho]
  rw [keptAt?, here, last, next, ht, Option.map_some, unpaired_of_not_near hn]
  rfl

/-- A NOT that stays was one before. -/
theorem getElem?_of_keptAt?_not {s : String} (h : keptAt? ts i = some (.not s)) : ts[i]? = some (.not s) := by
  unfold keptAt? at h
  split at h
  · cases h
  · obtain ⟨u, hu, he⟩ := Option.map_eq_some_iff.1 h
    cases u <;> cases he
    exact hu

/-- Do pairs use up all tokens in front of the first NOT? -/
def LeadsBehindPairs (ts : List Token) : Prop :=
  ∃ i s, ts[i]? = some (.not s) ∧ ∀ j < i, keptAt? ts j = none

theorem findSome?_range_eq_some_iff {α : Type} {f : Nat → Option α} {n : Nat} {a : α} :
    (List.range n).findSome? f = some a ↔ ∃ i < n, f i = some a ∧ ∀ j < i, f j = none := by
  induction n with
  | zero => simp
  | succ n ih =>
    rw [List.range_succ, List.findSome?_append, Option.or_eq_some_iff, ih, List.findSome?_eq_none_iff,
      List.findSome?_singleton]
    constructor
    · rintro (⟨i, less, h⟩ | ⟨free, h⟩)
      · exact ⟨i, by omega, h⟩
      · exact ⟨n, by omega, h, fun j hj => free j (List.mem_range.2 hj)⟩
    · rintro ⟨i, less, h, free⟩
      rcases Nat.lt_succ_iff_lt_or_eq.1 less with less | rfl
      · exact .inl ⟨i, less, h, free⟩
      · exact .inr ⟨fun j hj => free j (List.mem_range.1 hj), h⟩

theorem head?_stream_iff (ts : List Token) :
    (extract [] none ts).stream.head?.any Token.isNot = true ↔ LeadsBehindPairs ts := by
  rw [extract_stream, List.head?_filterMap, any_isNot_iff]
  constructor
  · rintro ⟨s, hs⟩
    obtain ⟨i, -, hi, free⟩ := findSome?_range_eq_some_iff.1 hs
    exact ⟨i, s, getElem?_of_keptAt?_not hi, free⟩
  · rintro ⟨i, s, hi, free⟩
    have inside : i < ts.length := (List.getElem?_eq_some_iff.1 hi).1
    exact ⟨s, findSome?_range_eq_some_iff.2 ⟨i, inside, keptAt?_of_not_joined hi rfl rfl, free⟩⟩

theorem leadsBehindPairs_of_head? (h : ts.head?.any Token.isNot = true) : LeadsBehindPairs ts := by
  obtain ⟨s, hs⟩ := any_isNot_iff.1 h
  exact ⟨0, s, by rw [← List.head?_eq_getElem?, hs], fun _ less => absurd less (Nat.not_lt_zero _)⟩

/-! ## Pairs or none -/

theorem extract_pairs_eq_nil_iff (ts : List Token) :
    (extract [] none ts).pairs = [] ↔ ∀ i, isPaired ts i = false := by
  rw [extract_pairs, List.filterMap_eq_nil_iff]
  constructor
  · intro none i
    by_contra paired
    obtain ⟨_, d, s, _, -, ht, -, -, pair⟩ := exists_pairAt? (Bool.not_eq_false _ ▸ paired)
    have inside : i < ts.length := (List.getElem?_eq_some_iff.1 ht).1
    rw [none i (List.mem_range.2 inside)] at pair
    cases pair
  · exact fun none i _ => pairAt?_of_not_paired (none i)

/-- Without pairs every token stays, so a NOT is the first to stay only if it is the first of all. -/
theorem LeadsBehindPairs.head? (leads : LeadsBehindPairs ts) (h : ∀ i, isPaired ts i = false) :
    ts.head?.any Token.isNot = true := by
  obtain ⟨i, s, hi, free⟩ := leads
  have stays (i : Nat) : keptAt? ts i = ts[i]?.map Token.unpaired := by
    simp [keptAt?, h]
  rcases Nat.eq_zero_or_pos i with rfl | later
  · rw [List.head?_eq_getElem?, hi]
    rfl
  · have inside : i < ts.length := (List.getElem?_eq_some_iff.1 hi).1
    have first := free 0 later
    rw [stays, List.getElem?_eq_getElem (by omega)] at first
    cases first

end Query

/-! ## The plan -/

namespace Plan

/-- Is there nothing to search for, and nothing found by any backend? -/
structure FindsNothing (p : Plan) : Prop where
  empty : p.isEmpty = true
  evaluate : ∀ b : Backend, b.evaluate p = []

theorem isEmpty_iff (p : Plan) : p.isEmpty = true ↔ p.primary = [] ∧ p.proximity = [] := by
  simp [isEmpty]

theorem findsNothing_iff (p : Plan) : p.FindsNothing ↔ p.isEmpty = true := by
  refine ⟨FindsNothing.empty, fun empty => ⟨empty, fun b => ?_⟩⟩
  obtain ⟨primary, proximity⟩ := p.isEmpty_iff.1 empty
  rw [b.evaluate_eq, if_pos proximity, Backend.keptHits, Backend.primaryHits, primary]
  rfl

end Plan

namespace Query

theorem leadingNot_mem_warnings_iff (tokens : Tokens) :
    .leadingNot ∈ (planOf tokens).warnings ↔ LeadsBehindPairs tokens.list := by
  rw [← head?_stream_iff, planOf_eq]
  simp

/-- In front of a NOT that comes first there is no primary term. -/
theorem primary_planOf_of_leadsBehindPairs {tokens : Tokens} (h : LeadsBehindPairs tokens.list) :
    (planOf tokens).primary = [] := by
  obtain ⟨s, hs⟩ := any_isNot_iff.1 ((head?_stream_iff _).2 h)
  obtain ⟨rest, stream⟩ := List.head?_eq_some_iff.1 hs
  rw [planOf_eq]
  dsimp only
  rw [stream]
  rfl

/-- The tokens of a query. -/
def tokensOf (raw : String) : List Token := (tokenize raw.toList).list

/-- Is the first token of a query a NOT? -/
def StartsWithNot (raw : String) : Prop := (tokensOf raw).head?.any Token.isNot = true

/--
The warning about a leading NOT comes exactly if pairs use up all tokens in front of the first NOT, so whenever the
query starts with NOT. Then no primary term is left, and on every backend the plan finds the documents of its pairs,
whatever it excludes. So the query starts with NOT and nothing is left to search exactly if no NEAR takes a pair.
-/
theorem leadingNot_true_iff (raw : String) :
    (.leadingNot ∈ (translate raw).warnings ↔ LeadsBehindPairs (tokensOf raw)) ∧
      (StartsWithNot raw → .leadingNot ∈ (translate raw).warnings) ∧
      (.leadingNot ∈ (translate raw).warnings →
        (translate raw).primary = [] ∧
          (∀ (b : Backend) (f : String), f ∈ filesOf (b.evaluate (translate raw)) ↔
            ∃ pair ∈ (translate raw).proximity,
              f ∈ filesOf (b.searchProximity pair.first pair.second pair.maxWords)) ∧
          ((StartsWithNot raw ∧ (translate raw).FindsNothing) ↔ ∀ i, isPaired (tokensOf raw) i = false)) := by
  have reported : .leadingNot ∈ (translate raw).warnings ↔ LeadsBehindPairs (tokensOf raw) :=
    leadingNot_mem_warnings_iff _
  refine ⟨reported, fun starts => reported.2 (leadsBehindPairs_of_head? starts), fun warned => ?_⟩
  have leads := reported.1 warned
  have primary : (translate raw).primary = [] := primary_planOf_of_leadsBehindPairs leads
  have pairs : (translate raw).proximity = [] ↔ ∀ i, isPaired (tokensOf raw) i = false := by
    rw [← extract_pairs_eq_nil_iff]
    exact iff_of_eq (congrArg (Plan.proximity · = []) (planOf_eq _))
  refine ⟨primary, fun b f => ?_, ?_⟩
  · have none : b.primaryHits (translate raw) = [] := by
      rw [Backend.primaryHits, primary]
    rw [b.mem_filesOf_evaluate, b.mem_filesOf_keptHits, none]
    simp [filesOf, Backend.pairHits]
  · rw [Plan.findsNothing_iff, Plan.isEmpty_iff, ← pairs]
    exact ⟨fun h => h.2.2, fun h => ⟨leads.head? (pairs.1 h), primary, h⟩⟩

/-- The query does start with NOT. -/
theorem leadingNot_island :
    .leadingNot ∈ (translate "NOT island").warnings ∧ StartsWithNot "NOT island" ∧
      (translate "NOT island").FindsNothing := by
  have starts : (tokensOf "NOT island").head?.any Token.isNot = true := by decide +kernel
  have none : (extract [] none (tokensOf "NOT island")).pairs = [] := by decide +kernel
  obtain ⟨-, warns, truth⟩ := leadingNot_true_iff "NOT island"
  have warned := warns starts
  exact ⟨warned, (truth warned).2.2.2 ((extract_pairs_eq_nil_iff _).1 none)⟩

/-- The query starts with a pair, which is left to search, and finds a document that holds what is excluded. -/
theorem leadingNot_behind_pair :
    let raw := "log NEAR/2 island NOT boat"
    let b : Backend :=
      .memory ⟨[⟨1, 1, "a.pdf", "DataSet 1/a.pdf", 1, "log island boat", some [0]⟩], ⟨false, false, 300⟩⟩
    .leadingNot ∈ (translate raw).warnings ∧ ¬ StartsWithNot raw ∧ (translate raw).isEmpty = false ∧
      "a.pdf" ∈ filesOf (b.evaluate (translate raw)) := by
  intro raw b
  have plan : translate raw =
      ⟨[], .single, [⟨⟨"log", false⟩, ⟨"island", false⟩, 2⟩], [⟨"boat", false⟩], [.leadingNot]⟩ := by
    decide +kernel
  have first : (tokensOf raw).head? = some (.word "log") := by decide +kernel
  have found : "a.pdf" ∈ filesOf (b.searchProximity ⟨"log", false⟩ ⟨"island", false⟩ 2) := by decide +kernel
  rw [b.mem_filesOf_evaluate, StartsWithNot, first, plan]
  exact ⟨List.mem_singleton_self _, nofun, rfl, .inr ⟨_, List.mem_singleton_self _, found⟩⟩

end Query

end Concordance
