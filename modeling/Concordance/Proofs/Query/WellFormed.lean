/-
What every plan is like, whatever the query. Its terms are read off tokens, which are not blank and hold no quotes,
and neither taking pairs out nor joining spellings changes that. Two terms are at least combined by AND or OR, and
the warnings come in a fixed order.
-/
import Concordance.Proofs.Query.Neighbours
import Concordance.Proofs.Query.Quotes
import Concordance.Proofs.Query.Strict

namespace Concordance

open Text

/-- Is a term something to search for: not blank, and without quotes? -/
structure Term.IsProper (t : Term) : Prop where
  inked : ∃ c ∈ t.text.toList, isBlank c = false
  no_quote : '"' ∉ t.text.toList

/-- Is a term one that NEAR joins: proper, and a single word unless it is quoted? -/
structure Term.IsOperand (t : Term) : Prop extends t.IsProper where
  no_blank : t.quoted = false → ∀ c ∈ t.text.toList, isBlank c = false

/-- The place of a warning in the order in which warnings come. -/
def Warning.rank : Warning → Nat
  | unterminatedQuote => 0
  | danglingNear _ => 1
  | leadingNot => 2
  | mixedConnectives => 3

/-- What an evaluation relies on. -/
structure Plan.WellFormed (p : Plan) : Prop where
  primary : ∀ t ∈ p.primary, t.IsProper
  exclusions : ∀ t ∈ p.exclusions, t.IsProper
  operands : ∀ pair ∈ p.proximity, pair.first.IsOperand ∧ pair.second.IsOperand
  single : p.combinator = .single ↔ p.primary.length ≤ 1
  once : ∀ w ∈ [Warning.unterminatedQuote, .leadingNot, .mixedConnectives], p.warnings.count w ≤ 1
  order : p.warnings.Pairwise fun v w => v.rank ≤ w.rank
  mixed : .mixedConnectives ∈ p.warnings → p.combinator = .and ∨ p.primary.length ≤ 1

namespace Query

variable {ts run : List Token} {t : Token}

/-! ## Tokens that stay and tokens in pairs -/

theorem extract_stream (ts : List Token) :
    (extract [] none ts).stream = (List.range ts.length).filterMap (keptAt? ts) := by
  rw [extract_eq, List.range_eq_range']
  rfl

theorem extract_pairs (ts : List Token) :
    (extract [] none ts).pairs = (List.range ts.length).filterMap (pairAt? ts) := by
  rw [extract_eq, List.range_eq_range']
  rfl

/-- A token that stays is one of the query, as a word if it is a NEAR. -/
theorem exists_eq_unpaired_of_mem_stream (h : t ∈ (extract [] none ts).stream) : ∃ u ∈ ts, t = u.unpaired := by
  rw [extract_stream] at h
  obtain ⟨i, -, hi⟩ := List.mem_filterMap.1 h
  unfold keptAt? at hi
  split at hi
  · cases hi
  · obtain ⟨u, hu, rfl⟩ := Option.map_eq_some_iff.1 hi
    exact ⟨u, List.mem_of_getElem? hu, rfl⟩

/-- The terms of a pair are those of tokens of the query, the left one a word if it is a NEAR. -/
theorem exists_eq_term_of_mem_pairs {pair : ProximityPair} (h : pair ∈ (extract [] none ts).pairs) :
    ∃ l ∈ ts, ∃ r ∈ ts, pair.first = l.unpaired.term ∧ pair.second = r.term := by
  rw [extract_pairs] at h
  obtain ⟨i, -, hi⟩ := List.mem_filterMap.1 h
  have paired : isPaired ts i = true := by
    by_contra none
    rw [pairAt?_of_not_paired (Bool.eq_false_iff.2 none)] at hi
    cases hi
  obtain ⟨l, d, s, r, hl, -, hr, -, he⟩ := exists_pairAt? paired
  rw [hi, Option.some_inj] at he
  have left : l ∈ ts := by
    unfold previous? at hl
    split at hl
    · cases hl
    · exact List.mem_of_getElem? hl
  exact ⟨l, left, r, List.mem_of_getElem? hr, by rw [he], by rw [he]⟩

/-! ## Spellings -/

/-- No token of a query is blank or holds a quote, and none but phrases hold blanks. -/
theorem isSpelled_of_mem_tokenize {s : List Char} (ht : t ∈ (tokenize s).list) : t.IsSpelled := by
  rw [list_tokenize] at ht
  obtain ⟨⟨piece, i⟩, hp, ht⟩ := List.mem_flatMap.1 ht
  refine isSpelled_of_mem_pieceTokens (fun quote => ?_) ht
  exact absurd (mem_of_mem_pieces _ (List.fst_mem_of_mem_zipIdx hp) quote).2 (by simp)

theorem text_unpaired (t : Token) : t.unpaired.text = t.text := by
  cases t <;> rfl

theorem text_term (t : Token) : t.term.text = t.text := by
  cases t <;> rfl

theorem Token.IsSpelled.unpaired (h : t.IsSpelled) : t.unpaired.IsSpelled := by
  have same := text_unpaired t
  refine ⟨by rw [same]; exact h.inked, by rw [same]; exact h.no_quote, fun other => ?_⟩
  rw [same]
  refine h.no_blank fun body he => other body ?_
  rw [he]
  rfl

/-- A token by itself gives an operand. -/
theorem Token.IsSpelled.isOperand_term (h : t.IsSpelled) : t.term.IsOperand := by
  have same := text_term t
  refine ⟨⟨by rw [same]; exact h.inked, by rw [same]; exact h.no_quote⟩, fun unquoted => ?_⟩
  rw [same]
  refine h.no_blank ?_
  rintro body rfl
  cases unquoted

/-! ## Terms -/

/-- A run of tokens gives a term that is neither blank nor holds a quote. -/
theorem isProper_runTerm? {term : Term} (h : ∀ t ∈ run, t.IsSpelled) (ht : runTerm? run = some term) :
    term.IsProper := by
  unfold runTerm? at ht
  split at ht
  · cases ht
  · cases ht
    exact (h _ List.mem_cons_self).isOperand_term.toIsProper
  · rename_i none _
    obtain ⟨t, rest, rfl⟩ := List.exists_cons_of_ne_nil none
    cases ht
    let texts := ((t :: rest).map Token.text).map String.toList
    have letters : (spaced ((t :: rest).map Token.text)).toList = joinWith [' '] texts := String.toList_ofList
    have first : [t.text.toList].Sublist texts := List.singleton_sublist.2 List.mem_cons_self
    constructor
    · obtain ⟨c, hc, ink⟩ := (h t List.mem_cons_self).inked
      exact ⟨c, by rw [letters]; exact (joinWith_sublist [' '] first).subset hc, ink⟩
    · rw [letters]
      intro quote
      rcases mem_of_mem_joinWith quote with quote | ⟨text, ht, quote⟩
      · exact absurd quote (by decide)
      · obtain ⟨_, hs, rfl⟩ := List.mem_map.1 ht
        obtain ⟨u, hu, rfl⟩ := List.mem_map.1 hs
        exact (h u hu).no_quote quote

theorem isProper_of_mem_termsBetween {separates : Token → Bool} {term : Term} (h : ∀ t ∈ ts, t.IsSpelled)
    (ht : term ∈ termsBetween separates ts) : term.IsProper := by
  obtain ⟨run, hrun, hterm⟩ := List.mem_filterMap.1 ht
  exact isProper_runTerm? (fun t hm => h t (mem_of_mem_pieces separates hrun hm).1) hterm

/-! ## Connectives -/

theorem isProper_of_mem_connect {term : Term} (h : ∀ t ∈ ts, t.IsSpelled) (ht : term ∈ (connect ts).1) :
    term.IsProper := by
  unfold connect at ht
  dsimp only at ht
  split at ht
  · exact isProper_of_mem_termsBetween h ht
  · split at ht
    · exact isProper_of_mem_termsBetween h ht
    · exact isProper_runTerm? h (Option.mem_toList.1 ht)

/-- Terms between connectives are combined by them, by AND if there is one, unless they are too few. -/
theorem exists_connect_eq (ts : List Token) :
    ∃ terms combinator,
      connect ts = (terms, if terms.length > 1 then combinator else .single, ts.any Token.isAnd && ts.any Token.isOr) ∧
        (combinator = .single → terms.length ≤ 1) ∧ (ts.any Token.isAnd = true → combinator = .and) := by
  unfold connect
  cases ts.any Token.isAnd with
  | true => exact ⟨_, .and, rfl, nofun, fun _ => rfl⟩
  | false =>
    cases ts.any Token.isOr with
    | true => exact ⟨_, .or, rfl, nofun, nofun⟩
    | false => exact ⟨_, .single, rfl, fun _ => Option.length_toList_le, nofun⟩

theorem combinator_connect_iff (ts : List Token) : (connect ts).2.1 = .single ↔ (connect ts).1.length ≤ 1 := by
  obtain ⟨terms, combinator, he, few, -⟩ := exists_connect_eq ts
  rw [he]
  dsimp only
  split
  · exact ⟨few, fun h => absurd h (by omega)⟩
  · exact ⟨fun _ => by omega, fun _ => rfl⟩

theorem combinator_connect_of_mixed (h : (connect ts).2.2 = true) :
    (connect ts).2.1 = .and ∨ (connect ts).1.length ≤ 1 := by
  obtain ⟨terms, combinator, he, -, and⟩ := exists_connect_eq ts
  rw [he] at h ⊢
  dsimp only at h ⊢
  rw [Bool.and_eq_true] at h
  split
  · exact .inl (and h.1)
  · exact .inr (by omega)

/-! ## Plans -/

/-- The warnings of a plan stand in the order of their ranks, of which only that of a NEAR repeats. -/
theorem pairwise_warnings_planOf (tokens : Tokens) :
    (planOf tokens).warnings.Pairwise fun v w => v.rank < w.rank ∨ v.rank = 1 ∧ w.rank = 1 := by
  rw [planOf_eq]
  dsimp only
  split <;> split <;> split <;>
    simp [List.pairwise_append, List.pairwise_map, List.pairwise_of_forall, or_imp, forall_and, Warning.rank]

theorem count_warnings_planOf {w : Warning} (hw : w.rank ≠ 1) (tokens : Tokens) :
    (planOf tokens).warnings.count w ≤ 1 := by
  by_contra more
  have twice : [w, w].Sublist (planOf tokens).warnings := (List.replicate_sublist_iff (n := 2)).2 (by omega)
  rcases List.pairwise_iff_forall_sublist.1 (pairwise_warnings_planOf tokens) twice with less | ⟨same, -⟩
  · omega
  · exact hw same

theorem mixedConnectives_mem_warnings_iff (tokens : Tokens) :
    .mixedConnectives ∈ (planOf tokens).warnings ↔
      (connect ((extract [] none tokens.list).stream.takeWhile (!·.isNot))).2.2 = true := by
  rw [planOf_eq]
  simp

/--
Every text is read as a plan in which no term is blank or holds a quote, and none that a pair names unquoted holds a
blank. Its terms are combined by a connective exactly if there are two of them or more, its warnings come in order and
but for NEARs without a pair at most once each, and both connectives are reported only if AND combines or nothing is
left to combine.
-/
theorem wellFormed_translate (raw : String) : (translate raw).WellFormed := by
  let tokens := tokenize raw.toList
  let stream := (extract [] none tokens.list).stream
  have spelled : ∀ t ∈ tokens.list, t.IsSpelled := fun t => isSpelled_of_mem_tokenize
  have kept : ∀ t ∈ stream, t.IsSpelled := by
    intro t ht
    obtain ⟨u, hu, rfl⟩ := exists_eq_unpaired_of_mem_stream ht
    exact (spelled u hu).unpaired
  have head : ∀ t ∈ stream.takeWhile (!·.isNot), t.IsSpelled :=
    fun t ht => kept t ((List.takeWhile_sublist _).subset ht)
  have operands : ∀ pair ∈ (extract [] none tokens.list).pairs, pair.first.IsOperand ∧ pair.second.IsOperand := by
    intro pair hp
    obtain ⟨l, hl, r, hr, first, second⟩ := exists_eq_term_of_mem_pairs hp
    rw [first, second]
    exact ⟨(spelled l hl).unpaired.isOperand_term, (spelled r hr).isOperand_term⟩
  have excluded : ∀ t ∈ (pieces Token.isNot stream).tail.filterMap runTerm?, t.IsProper :=
    fun t ht => isProper_of_mem_termsBetween kept ((List.tail_sublist _).filterMap runTerm? |>.subset ht)
  have kinds : ∀ w ∈ [Warning.unterminatedQuote, .leadingNot, .mixedConnectives], w.rank ≠ 1 := by decide
  refine
    { primary := ?_, exclusions := ?_, operands := ?_, single := ?_, mixed := fun h => ?_
      once := fun w hw => count_warnings_planOf (kinds w hw) tokens
      order := (pairwise_warnings_planOf tokens).imp fun h => by omega }
  all_goals rw [translate, planOf_eq]
  · exact fun t => isProper_of_mem_connect head
  · exact excluded
  · exact operands
  · exact combinator_connect_iff _
  · exact combinator_connect_of_mixed ((mixedConnectives_mem_warnings_iff tokens).1 h)

end Query

end Concordance
