/-
Which queries the strict reading accepts. It looks for warnings, which the passes over the tokens leave while
they rewrite them: pairs are taken out and a NEAR without a pair becomes a word before the connectives are
counted. Still the outcome is a property of the tokens as they are cut from the query.
-/
import Concordance.Proofs.Query.Pairs
import Concordance.Proofs.Query.Tokens
import Concordance.Proofs.Text.Pieces

namespace Concordance.Query

open Text

/-! ## What makes a query ambiguous -/

/-- Do operands stand directly on both sides, at the end of `before` and at the start of `after`? -/
def BetweenOperands (before after : List Token) : Prop :=
  before.getLast?.any Token.isOperand = true ∧ after.head?.any Token.isOperand = true

/-- Does every NEAR stand directly between two operands? -/
def NearsPair (ts : List Token) : Prop :=
  ∀ before d s after, ts = before ++ .near d s :: after → BetweenOperands before after

/-- Is `d` the distance of the first NEAR that does not stand between two operands? -/
def FirstLoose (ts : List Token) (d : UInt32) : Prop :=
  ∃ before s after, ts = before ++ .near d s :: after ∧ ¬ BetweenOperands before after ∧
    ∀ b d' s' a, ts = b ++ .near d' s' :: a → b.length < before.length → BetweenOperands b a

/-- Do the tokens before the first NOT hold both an AND and an OR? -/
def MixesConnectives (ts : List Token) : Prop :=
  (∃ t ∈ ts.takeWhile (!·.isNot), t.isAnd = true) ∧ ∃ t ∈ ts.takeWhile (!·.isNot), t.isOr = true

/-- A query with one reading. -/
structure Unambiguous (raw : String) : Prop where
  quotes : Even (raw.toList.count '"')
  nears : NearsPair (tokenize raw.toList).list
  connectives : ¬ MixesConnectives (tokenize raw.toList).list

/-! ## Loose NEARs -/

section

variable {pre ts rest : List Token} {t : Token} {ready : Bool} {d : UInt32}

/-- `NearsPair` for tokens that stand behind others. -/
def NearsPairBehind (pre ts : List Token) : Prop :=
  ∀ before d s after, ts = before ++ .near d s :: after → BetweenOperands (pre ++ before) after

/-- `FirstLoose` for tokens that stand behind others. -/
def FirstLooseBehind (pre ts : List Token) (d : UInt32) : Prop :=
  ∃ before s after, ts = before ++ .near d s :: after ∧ ¬ BetweenOperands (pre ++ before) after ∧
    ∀ b d' s' a, ts = b ++ .near d' s' :: a → b.length < before.length → BetweenOperands (pre ++ b) a

theorem NearsPairBehind.cons (ht : ∀ d s, t = .near d s → BetweenOperands pre rest)
    (h : NearsPairBehind (pre ++ [t]) rest) : NearsPairBehind pre (t :: rest) := by
  intro before d s after he
  cases before with
  | nil =>
    cases he
    simpa using ht d s rfl
  | cons x tail =>
    rw [List.cons_append, List.cons.injEq] at he
    obtain ⟨rfl, he⟩ := he
    simpa using h tail d s after he

theorem FirstLooseBehind.cons (ht : ∀ d s, t = .near d s → BetweenOperands pre rest)
    (h : FirstLooseBehind (pre ++ [t]) rest d) : FirstLooseBehind pre (t :: rest) d := by
  obtain ⟨before, s, after, he, loose, earlier⟩ := h
  refine ⟨t :: before, s, after, by rw [he, List.cons_append], by simpa using loose, ?_⟩
  intro b d' s' a hb hlt
  cases b with
  | nil =>
    cases hb
    simpa using ht d' s' rfl
  | cons x tail =>
    rw [List.cons_append, List.cons.injEq] at hb
    obtain ⟨rfl, hb⟩ := hb
    simpa using earlier tail d' s' a hb (by simpa using hlt)

theorem firstLooseBehind_near (s : String) (h : ¬ BetweenOperands pre rest) :
    FirstLooseBehind pre (.near d s :: rest) d := by
  refine ⟨[], s, rest, rfl, by simpa using h, ?_⟩
  intro b d' s' a _ hlt
  simp at hlt

/--
Either all NEARs take a pair, or the first that takes none is the first that does not stand between operands.
What stands in front does not matter to tokens that start with an operand, so neither does it matter whether
a NEAR that stands there took a pair.
-/
theorem looseFrom_cases
    (h : ts.head?.any Token.isOperand = true ∨ ready = pre.getLast?.any Token.isOperand) :
    (looseFrom ready ts = [] ∧ NearsPairBehind pre ts) ∨
      ∃ d, (looseFrom ready ts).head? = some d ∧ FirstLooseBehind pre ts d := by
  induction ts generalizing ready pre with
  | nil => exact .inl ⟨rfl, by simp [NearsPairBehind]⟩
  | cons t rest ih =>
    have later {ready' : Bool}
        (hr : rest.head?.any Token.isOperand = true ∨ ready' = (pre ++ [t]).getLast?.any Token.isOperand)
        (ht : ∀ d s, t = .near d s → BetweenOperands pre rest) :
        (looseFrom ready' rest = [] ∧ NearsPairBehind pre (t :: rest)) ∨
          ∃ d, (looseFrom ready' rest).head? = some d ∧ FirstLooseBehind pre (t :: rest) d := by
      rcases ih hr with ⟨none, pair⟩ | ⟨d, some, loose⟩
      · exact .inl ⟨none, pair.cons ht⟩
      · exact .inr ⟨d, some, loose.cons ht⟩
    cases ht : t.isNear with
    | false =>
      rw [looseFrom_cons ht]
      refine later (.inr (by simp)) ?_
      rintro d s rfl
      cases ht
    | true =>
      obtain ⟨d, s, rfl⟩ : ∃ d s, t = .near d s := by
        cases t <;> first | exact ⟨_, _, rfl⟩ | cases ht
      have left : ready = pre.getLast?.any Token.isOperand := h.resolve_left (by simp [Token.isOperand])
      rw [looseFrom, left]
      split
      · rename_i both
        rw [Bool.and_eq_true] at both
        exact later (.inl both.2) fun _ _ _ => both
      · rename_i both
        rw [Bool.and_eq_true] at both
        exact .inr ⟨d, rfl, firstLooseBehind_near s both⟩

end

/-! ## Mixed connectives -/

section

variable {ts ts' : List Token}

theorem takeWhile_filter_isConnective (ts : List Token) :
    (ts.filter Token.isConnective).takeWhile (!·.isNot) = (ts.takeWhile (!·.isNot)).filter Token.isConnective := by
  have search : (fun t : Token => !t.isConnective || !t.isNot) = (!·.isNot) := by
    funext t
    cases t <;> rfl
  rw [List.takeWhile_filter, search]

/-- Whether connectives are mixed is told by the connectives alone. -/
theorem mixesConnectives_iff_of_filter (h : ts.filter Token.isConnective = ts'.filter Token.isConnective) :
    MixesConnectives ts ↔ MixesConnectives ts' := by
  have kept (q : Token → Bool) (hq : ∀ t, q t = true → t.isConnective = true) (l : List Token) :
      (∃ t ∈ l.takeWhile (!·.isNot), q t = true) ↔
        ∃ t ∈ (l.filter Token.isConnective).takeWhile (!·.isNot), q t = true := by
    rw [takeWhile_filter_isConnective]
    constructor
    · rintro ⟨t, ht, hqt⟩
      exact ⟨t, List.mem_filter.2 ⟨ht, hq t hqt⟩, hqt⟩
    · rintro ⟨t, ht, hqt⟩
      exact ⟨t, List.mem_of_mem_filter ht, hqt⟩
  have and (t : Token) (h : t.isAnd = true) : t.isConnective = true := by simp [Token.isConnective, h]
  have or (t : Token) (h : t.isOr = true) : t.isConnective = true := by simp [Token.isConnective, h]
  unfold MixesConnectives
  rw [kept _ and ts, kept _ or ts, kept _ and ts', kept _ or ts', h]

theorem mixed_connect_iff (ts : List Token) :
    (connect (ts.takeWhile (!·.isNot))).2.2 = true ↔ MixesConnectives ts := by
  have both : (connect (ts.takeWhile (!·.isNot))).2.2 =
      ((ts.takeWhile (!·.isNot)).any Token.isAnd && (ts.takeWhile (!·.isNot)).any Token.isOr) := rfl
  rw [both, Bool.and_eq_true, List.any_eq_true, List.any_eq_true, MixesConnectives]

end

/-! ## The plan -/

/-- The tokens before the first NOT give the primary terms with their connectives, and those behind it exclusions. -/
theorem planOf_eq (tokens : Tokens) :
    let e := extract [] none tokens.list
    let primary := connect (e.stream.takeWhile (!·.isNot))
    planOf tokens =
      { primary := primary.1
        combinator := primary.2.1
        proximity := e.pairs
        exclusions := (pieces Token.isNot e.stream).tail.filterMap runTerm?
        warnings :=
          (if tokens.unterminatedQuote then [.unterminatedQuote] else []) ++
            e.dangling.map .danglingNear ++
            (if e.stream.head?.any Token.isNot then [.leadingNot] else []) ++
            (if primary.2.2 then [.mixedConnectives] else []) } := by
  intro e primary
  obtain ⟨head, negated, cut⟩ := exists_pieces_eq_cons Token.isNot e.stream
  have first : head = e.stream.takeWhile (!·.isNot) := by
    have pieces := head?_pieces Token.isNot e.stream
    rwa [cut, List.head?_cons, Option.some_inj] at pieces
  have tail : (pieces Token.isNot e.stream).tail = negated := by rw [cut, List.tail_cons]
  rw [tail]
  unfold planOf
  simp only [e] at cut
  simp only [cut, first]
  rfl

/-! ## The strict reading -/

open Classical in
/-- The warnings of a query, by its tokens but for the one about a leading NOT. -/
theorem warnings_planOf (tokens : Tokens) :
    (planOf tokens).warnings =
      (if tokens.unterminatedQuote then [.unterminatedQuote] else []) ++
        (looseFrom false tokens.list).map .danglingNear ++
        (if (extract [] none tokens.list).stream.head?.any Token.isNot then [.leadingNot] else []) ++
        (if MixesConnectives tokens.list then [.mixedConnectives] else []) := by
  have mixed : (connect ((extract [] none tokens.list).stream.takeWhile (!·.isNot))).2.2 = true ↔
      MixesConnectives tokens.list := by
    rw [mixed_connect_iff]
    exact mixesConnectives_iff_of_filter (filter_isConnective_extract [] none tokens.list)
  have loose : looseFrom false tokens.list = (extract [] none tokens.list).dangling :=
    (dangling_extract [] none tokens.list).symm
  simp only [planOf_eq, ← mixed, loose]

open Classical in
/-- The first warning that makes a query ambiguous. -/
theorem find?_warnings_planOf (tokens : Tokens) :
    (planOf tokens).warnings.find? Warning.isAmbiguous =
      (if tokens.unterminatedQuote then some .unterminatedQuote else none).or
        (((looseFrom false tokens.list).head?.map .danglingNear).or
          (if MixesConnectives tokens.list then some .mixedConnectives else none)) := by
  have quote : (if tokens.unterminatedQuote then [Warning.unterminatedQuote] else []).find? Warning.isAmbiguous =
      if tokens.unterminatedQuote then some .unterminatedQuote else none := by
    split <;> rfl
  have nears (ds : List UInt32) :
      (ds.map Warning.danglingNear).find? Warning.isAmbiguous = ds.head?.map .danglingNear := by
    rw [List.find?_map]
    cases ds <;> rfl
  have leading (leads : Bool) : (if leads then [Warning.leadingNot] else []).find? Warning.isAmbiguous = none := by
    cases leads <;> rfl
  have mixed : (if MixesConnectives tokens.list then [Warning.mixedConnectives] else []).find? Warning.isAmbiguous =
      if MixesConnectives tokens.list then some .mixedConnectives else none := by
    split <;> rfl
  rw [warnings_planOf, List.find?_append, List.find?_append, List.find?_append, quote, nears, leading, mixed,
    Option.or_none, Option.or_assoc]

section

variable {raw : String}

theorem translateStrict_eq_error {w : Warning}
    (h : (planOf (tokenize raw.toList)).warnings.find? Warning.isAmbiguous = some w) :
    translateStrict raw = .error w := by
  unfold translateStrict translate
  simp only [h]

theorem eq_translate_of_translateStrict {p : Plan} (h : translateStrict raw = .ok p) : p = translate raw := by
  unfold translateStrict at h
  dsimp only at h
  split at h
  · cases h
  · cases h
    rfl

theorem translateStrict_of_odd (h : ¬ Even (raw.toList.count '"')) :
    translateStrict raw = .error .unterminatedQuote := by
  have quote : (tokenize raw.toList).unterminatedQuote = true :=
    (unterminatedQuote_tokenize _).2 (Nat.not_even_iff_odd.1 h)
  refine translateStrict_eq_error ?_
  rw [find?_warnings_planOf, if_pos quote]
  rfl

theorem unterminatedQuote_of_even (h : Even (raw.toList.count '"')) :
    (tokenize raw.toList).unterminatedQuote = false := by
  rw [Bool.eq_false_iff, Ne, unterminatedQuote_tokenize, Nat.not_odd_iff_even]
  exact h

theorem translateStrict_of_not_nearsPair (hq : Even (raw.toList.count '"'))
    (hn : ¬ NearsPair (tokenize raw.toList).list) :
    ∃ d, FirstLoose (tokenize raw.toList).list d ∧ translateStrict raw = .error (.danglingNear d) := by
  -- nothing stands in front of the tokens, so what is said of the tokens behind nothing is said of all
  rcases @looseFrom_cases [] (tokenize raw.toList).list false (.inr rfl) with ⟨-, pair⟩ | ⟨d, first, loose⟩
  · exact (hn pair).elim
  · refine ⟨d, loose, translateStrict_eq_error ?_⟩
    rw [find?_warnings_planOf, unterminatedQuote_of_even hq, first]
    rfl

theorem looseFrom_of_nearsPair {ts : List Token} (h : NearsPair ts) : looseFrom false ts = [] := by
  rcases @looseFrom_cases [] ts false (.inr rfl) with ⟨none, -⟩ | ⟨d, -, before, s, after, he, loose, -⟩
  · exact none
  · exact (loose (h before d s after he)).elim

theorem translateStrict_of_mixes (hq : Even (raw.toList.count '"')) (hn : NearsPair (tokenize raw.toList).list)
    (hm : MixesConnectives (tokenize raw.toList).list) : translateStrict raw = .error .mixedConnectives := by
  refine translateStrict_eq_error ?_
  rw [find?_warnings_planOf, unterminatedQuote_of_even hq, looseFrom_of_nearsPair hn, if_pos hm]
  rfl

theorem translateStrict_of_unambiguous (h : Unambiguous raw) : translateStrict raw = .ok (translate raw) := by
  have none : (planOf (tokenize raw.toList)).warnings.find? Warning.isAmbiguous = none := by
    rw [find?_warnings_planOf, unterminatedQuote_of_even h.quotes, looseFrom_of_nearsPair h.nears,
      if_neg h.connectives]
    rfl
  unfold translateStrict translate
  simp only [none]

end

/--
The strict reading accepts exactly the unambiguous queries, and reads them as the lenient reading does. Of the
others it reports a quote without a partner, else the first NEAR that does not stand between two operands, else
that AND and OR are mixed.
-/
theorem translateStrict_spec (raw : String) :
    ((∃ p, translateStrict raw = .ok p) ↔ Unambiguous raw) ∧
      (∀ p, translateStrict raw = .ok p → p = translate raw) ∧
      (¬ Even (raw.toList.count '"') → translateStrict raw = .error .unterminatedQuote) ∧
      (Even (raw.toList.count '"') → ¬ NearsPair (tokenize raw.toList).list →
        ∃ d, FirstLoose (tokenize raw.toList).list d ∧ translateStrict raw = .error (.danglingNear d)) ∧
      (Even (raw.toList.count '"') → NearsPair (tokenize raw.toList).list →
        MixesConnectives (tokenize raw.toList).list → translateStrict raw = .error .mixedConnectives) := by
  refine ⟨⟨?_, fun h => ⟨_, translateStrict_of_unambiguous h⟩⟩, fun p => eq_translate_of_translateStrict,
    translateStrict_of_odd, translateStrict_of_not_nearsPair, translateStrict_of_mixes⟩
  rintro ⟨p, ok⟩
  -- each way of being ambiguous ends in an error
  have quotes : Even (raw.toList.count '"') := by
    by_contra odd
    rw [translateStrict_of_odd odd] at ok
    cases ok
  have nears : NearsPair (tokenize raw.toList).list := by
    by_contra loose
    obtain ⟨d, -, error⟩ := translateStrict_of_not_nearsPair quotes loose
    rw [error] at ok
    cases ok
  refine ⟨quotes, nears, fun mixes => ?_⟩
  rw [translateStrict_of_mixes quotes nears mixes] at ok
  cases ok

end Concordance.Query
