/-
Which documents an index answers a search with. A term asks for each of its phrases; ranking changes the
order of the rows that match but neither adds nor drops any, and every document has its row.
-/
import Concordance.Index.Locate
import Concordance.Proofs.Index.Grammar
import Concordance.Proofs.Index.Matching
import Concordance.Proofs.Index.Stored
import Concordance.Proofs.Merge.Group

namespace Concordance

open Text

namespace Index

/-! ## What expressions ask for -/

/-- Does a text hold every phrase of the symbols, and is there a phrase? Texts without terms are no phrases. -/
def MatchesPhrases (symbols : List Symbol) (text : List Word) : Prop :=
  (∃ s ∈ symbols, terms s.text ≠ []) ∧ ∀ s ∈ symbols, terms s.text <:+: text

theorem ofTexts_singleton (s : List Char) (distance : Nat) :
    Query.ofTexts [s] distance = if terms s = [] then .nothing else .group [terms s] distance := by
  unfold Query.ofTexts
  rw [List.map_singleton, List.filter_cons]
  cases h : terms s <;> rfl

theorem holds_ofTexts_singleton {s : List Char} {distance : Nat} {text : List Word} :
    (Query.ofTexts [s] distance).Holds text ↔ terms s ≠ [] ∧ terms s <:+: text := by
  rw [ofTexts_singleton]
  split
  · rename_i none
    exact ⟨fun h => absurd h (Query.not_holds_nothing text), fun h => absurd none h.1⟩
  · rename_i some
    rw [Query.holds_group_singleton some]
    exact ⟨fun h => ⟨some, h⟩, And.right⟩

theorem ofExpressions_eq_map : ∀ parts : List Expression,
    Query.ofExpressions parts = parts.map Query.ofExpression
  | [] => rfl
  | e :: rest => by rw [Query.ofExpressions, ofExpressions_eq_map rest, List.map_cons]

theorem ofExpression_phrase (s : List Char) :
    Query.ofExpression (.phrase s) = if terms s = [] then .nothing else .group [terms s] 0 := by
  rw [Query.ofExpression, ofTexts_singleton]

theorem isNothing_ofExpression_phrase (s : List Char) :
    (Query.ofExpression (.phrase s)).isNothing = decide (terms s = []) := by
  rw [ofExpression_phrase]
  split
  · rename_i none
    simp [none, Query.isNothing]
  · rename_i some
    simp [some, Query.isNothing]

/-- All queries that ask for something, if there are any. -/
def Query.allOf (queries : List Query) : Query :=
  match queries.filter fun q => !q.isNothing with
  | [] => .nothing
  | kept => .all kept

theorem ofExpression_all (parts : List Expression) :
    Query.ofExpression (.all parts) = Query.allOf (parts.map Query.ofExpression) := by
  rw [Query.ofExpression, ofExpressions_eq_map]
  rfl

theorem holds_allOf {queries : List Query} {text : List Word} :
    (Query.allOf queries).Holds text ↔
      (∃ q ∈ queries, q.isNothing = false) ∧ ∀ q ∈ queries, q.isNothing = false → q.Holds text := by
  have kept : ∀ q, q ∈ queries.filter (fun q => !q.isNothing) ↔ q ∈ queries ∧ q.isNothing = false := by
    intro q
    rw [List.mem_filter, Bool.not_eq_true']
  unfold Query.allOf
  split
  · rename_i none
    rw [none] at kept
    refine ⟨fun h => absurd h (Query.not_holds_nothing text), ?_⟩
    rintro ⟨⟨q, hq⟩, -⟩
    cases (kept q).2 hq
  · rename_i some
    rw [Query.holds_all]
    constructor
    · intro h
      obtain ⟨q, hq⟩ := List.exists_mem_of_ne_nil _ some
      exact ⟨⟨q, (kept q).1 hq⟩, fun q hq hn => h q ((kept q).2 ⟨hq, hn⟩)⟩
    · rintro ⟨-, h⟩ q hq
      exact h q ((kept q).1 hq).1 ((kept q).1 hq).2

/-- Phrases side by side ask for all of them, less those without terms, and for at least one. -/
theorem holds_sideBySide {symbols : List Symbol} {text : List Word} :
    (Query.ofExpression (sideBySide symbols)).Holds text ↔ MatchesPhrases symbols text := by
  have phrase : ∀ s : Symbol, (Query.ofExpression (.phrase s.text)).Holds text ↔
      terms s.text ≠ [] ∧ terms s.text <:+: text := by
    intro s
    rw [Query.ofExpression]
    exact holds_ofTexts_singleton
  -- what asks for nothing is left out of several phrases
  have asks : ∀ s : Symbol, (Query.ofExpression (.phrase s.text)).isNothing = false ↔ terms s.text ≠ [] := by
    intro s
    rw [isNothing_ofExpression_phrase, decide_eq_false_iff_not]
  have several : (Query.allOf (symbols.map fun s => Query.ofExpression (.phrase s.text))).Holds text ↔
      MatchesPhrases symbols text := by
    rw [holds_allOf, MatchesPhrases]
    simp only [List.mem_map, exists_exists_and_eq_and, forall_exists_index, and_imp, forall_apply_eq_imp_iff₂, asks,
      phrase]
    refine and_congr Iff.rfl (forall_congr' fun s => forall_congr' fun _ => ?_)
    by_cases ht : terms s.text = []
    · simp [ht]
    · exact ⟨fun h => (h ht).2, fun h _ => ⟨ht, h⟩⟩
  match symbols, several with
  | [], several => exact several
  | [s], _ =>
    have alone : sideBySide [s] = .phrase s.text := rfl
    rw [alone, phrase]
    simp [MatchesPhrases]
  | s :: s' :: rest, several =>
    have together : sideBySide (s :: s' :: rest) = .all ((s :: s' :: rest).map fun s => .phrase s.text) := rfl
    rw [together, ofExpression_all, List.map_map]
    exact several

theorem holds_foldl_or {ts : List Term} {left : Expression} {text : List Word} :
    (Query.ofExpression (ts.foldl (fun left t => .or left (exprOf t)) left)).Holds text ↔
      (Query.ofExpression left).Holds text ∨ ∃ t ∈ ts, MatchesPhrases (symbolsOf t) text := by
  induction ts generalizing left with
  | nil => simp
  | cons t ts ih =>
    rw [List.foldl_cons, ih, Query.ofExpression, Query.holds_or, exprOf, holds_sideBySide, or_assoc,
      List.exists_mem_cons_iff]

theorem interpret_of_read? {e : List Char} {x : Expression} (h : read? e = some x) :
    interpret e = .ofExpression x := by
  unfold interpret
  have some : e.isEmpty = false := by
    cases e with
    | nil =>
      have none : read? [] = none := by
        unfold read?
        rw [symbols?_nil]
        rfl
      rw [none] at h
      cases h
    | cons c e => rfl
  rw [some, h]
  rfl

theorem interpret_nil : interpret [] = .nothing := rfl

/-- An expression read as phrases side by side asks for them; one that is empty asks for nothing. -/
theorem holds_interpret {e : List Char} {symbols : List Symbol} (empty : symbols = [] → e = [])
    (reads : symbols ≠ [] → read? e = some (sideBySide symbols)) {text : List Word} :
    (interpret e).Holds text ↔ MatchesPhrases symbols text := by
  by_cases h : symbols = []
  · rw [empty h, interpret_nil, h]
    refine ⟨fun hn => absurd hn (Query.not_holds_nothing _), ?_⟩
    rintro ⟨⟨s, hs, -⟩, -⟩
    cases hs
  · rw [interpret_of_read? (reads h), holds_sideBySide]

/-! ## Rows that match -/

/-- Ranking puts the rows that match in order and keeps them all. -/
theorem ranked_perm (ix : Index) (q : Query) : (ix.ranked q).Perm (ix.found q) := by
  unfold ranked Rank.byWeight
  refine ((List.mergeSort_perm ..).map _).trans ?_
  rw [List.map_map]
  exact (List.map_id _).symm ▸ .refl _

theorem mem_filesOf_run {ix : Index} {e : List Char} {label f : String} :
    f ∈ filesOf (ix.run e label) ↔ ∃ x ∈ ix.entries, x.row.filename = f ∧ (interpret e).Holds x.terms := by
  rw [run_eq, filesOf, List.map_map, ((ranked_perm ix _).map _).mem_iff, List.mem_map]
  unfold found
  constructor
  · rintro ⟨r, hr, rfl⟩
    obtain ⟨x, hx, hm⟩ := List.mem_filterMap.1 hr
    obtain ⟨places, hp, rfl⟩ := Option.map_eq_some_iff.1 hm
    exact ⟨x, hx, rfl, by rw [Query.Holds, hp]; rfl⟩
  · rintro ⟨x, hx, rfl, hm⟩
    obtain ⟨places, hp⟩ := Option.isSome_iff_exists.1 hm
    exact ⟨⟨x, places⟩, List.mem_filterMap.2 ⟨x, hx, by rw [hp]; rfl⟩, rfl⟩

/-- The documents of an index answer for their rows. -/
theorem mem_filesOf_run_ofRows {rows : Rows} {documents : List Document} (hs : rows.Stores documents)
    {e : List Char} {label f : String} :
    f ∈ filesOf ((Index.ofRows rows).run e label) ↔
      ∃ d ∈ documents, d.filename = f ∧ (interpret e).Holds (terms d.text.toList) := by
  rw [mem_filesOf_run]
  constructor
  · rintro ⟨x, hx, hf, hm⟩
    obtain ⟨r, hr, rfl⟩ := List.mem_map.1 hx
    obtain ⟨d, hd, rfl⟩ := List.mem_map.1 (hs.perm.mem_iff.1 hr)
    exact ⟨d, hd, hf, hm⟩
  · rintro ⟨d, hd, hf, hm⟩
    have hr := hs.perm.mem_iff.2 (List.mem_map_of_mem hd)
    exact ⟨Entry.ofRow (Row.ofDocument d), List.mem_map_of_mem hr, hf, hm⟩

/-! ## Searches -/

variable {rows : Rows} {documents : List Document}

/-- A term is found in the documents that hold its phrases. -/
theorem mem_filesOf_search (hs : rows.Stores documents) {t : Term} (ht : NulFree t) {f : String} :
    f ∈ filesOf ((Index.ofRows rows).search t) ↔
      ∃ d ∈ documents, d.filename = f ∧ MatchesPhrases (symbolsOf t) (terms d.text.toList) := by
  unfold search
  rw [mem_filesOf_run_ofRows hs]
  refine exists_congr fun d => and_congr Iff.rfl (and_congr Iff.rfl ?_)
  exact holds_interpret (termExpr_eq_nil t).2 (read?_termExpr ht)

/-- Several terms are found together in the documents that hold all their phrases. -/
theorem mem_filesOf_searchMultiple_all (hs : rows.Stores documents) {ts : List Term}
    (ht : ∀ t ∈ ts, NulFree t) {c : Combinator} (hc : c ≠ .or) {f : String} :
    f ∈ filesOf ((Index.ofRows rows).searchMultiple ts c) ↔
      ∃ d ∈ documents, d.filename = f ∧ MatchesPhrases (ts.flatMap symbolsOf) (terms d.text.toList) := by
  have run : (Index.ofRows rows).searchMultiple ts c =
      (Index.ofRows rows).run (allExpr ts) (joinLabels " AND " ts) := by
    cases c with
    | or => exact absurd rfl hc
    | _ => rfl
  rw [run, mem_filesOf_run_ofRows hs]
  refine exists_congr fun d => and_congr Iff.rfl (and_congr Iff.rfl ?_)
  refine holds_interpret (fun none => ?_) (read?_allExpr ht)
  -- without symbols no term is spelled
  have empty : termExprs ts = [] := by
    rw [termExprs, List.filter_eq_nil_iff]
    intro e he
    obtain ⟨t, ht, rfl⟩ := List.mem_map.1 he
    simp [(termExpr_eq_nil t).2 (List.flatMap_eq_nil_iff.1 none t ht)]
  rw [allExpr, empty]
  rfl

/-- Alternatives are found in the documents that hold the phrases of some term. -/
theorem mem_filesOf_searchMultiple_or (hs : rows.Stores documents) {ts : List Term}
    (ht : ∀ t ∈ ts, NulFree t) {f : String} :
    f ∈ filesOf ((Index.ofRows rows).searchMultiple ts .or) ↔
      ∃ d ∈ documents, d.filename = f ∧ ∃ t ∈ ts, MatchesPhrases (symbolsOf t) (terms d.text.toList) := by
  rw [searchMultiple, mem_filesOf_run_ofRows hs]
  refine exists_congr fun d => and_congr Iff.rfl (and_congr Iff.rfl ?_)
  -- terms that are not spelled match nothing
  have kept : (∃ t ∈ ts, MatchesPhrases (symbolsOf t) (terms d.text.toList)) ↔
      ∃ t ∈ ts.filter (fun t => !(termExpr t).isEmpty), MatchesPhrases (symbolsOf t) (terms d.text.toList) := by
    constructor
    · rintro ⟨t, hm, hp⟩
      refine ⟨t, List.mem_filter.2 ⟨hm, ?_⟩, hp⟩
      obtain ⟨⟨s, hs, -⟩, -⟩ := hp
      simp only [Bool.not_eq_true', List.isEmpty_eq_false_iff]
      exact fun he => List.ne_nil_of_mem hs ((termExpr_eq_nil t).1 he)
    · rintro ⟨t, hm, hp⟩
      exact ⟨t, List.mem_of_mem_filter hm, hp⟩
  rw [kept]
  cases h : ts.filter (fun t => !(termExpr t).isEmpty) with
  | nil =>
    have empty : termExprs ts = [] := by
      rw [termExprs, List.filter_map]
      exact List.map_eq_nil_iff.2 h
    have none : anyExpr ts = [] := by
      rw [anyExpr, empty]
      rfl
    rw [none, interpret_nil]
    refine ⟨fun hn => absurd hn (Query.not_holds_nothing _), ?_⟩
    rintro ⟨t, ht, -⟩
    cases ht
  | cons t rest =>
    rw [interpret_of_read? (read?_anyExpr ht h), holds_foldl_or, exprOf, holds_sideBySide,
      List.exists_mem_cons_iff]

/-- Two terms of one phrase each are found close together where instances of the phrases are. -/
theorem mem_filesOf_searchProximity (hs : rows.Stores documents) {a b : Term} (ha : NulFree a) (hb : NulFree b)
    (hat : terms (operandOf a).text ≠ []) (hbt : terms (operandOf b).text ≠ []) {n : UInt32} {f : String} :
    f ∈ filesOf ((Index.ofRows rows).searchProximity a b n) ↔
      ∃ d ∈ documents, d.filename = f ∧
        ∃ i ∈ instances (terms (operandOf a).text) (terms d.text.toList),
          ∃ j ∈ instances (terms (operandOf b).text) (terms d.text.toList),
            j ≤ i + (terms (operandOf a).text).length + n.toNat ∧
              i ≤ j + (terms (operandOf b).text).length + n.toNat := by
  unfold searchProximity
  rw [mem_filesOf_run_ofRows hs, interpret_of_read? (read?_nearExpr ha hb n)]
  have group : Query.ofExpression (.near [(operandOf a).text, (operandOf b).text] n.toNat) =
      .group [terms (operandOf a).text, terms (operandOf b).text] n.toNat := by
    rw [Query.ofExpression, Query.ofTexts]
    simp [hat, hbt]
  simp only [group, Query.holds_group_pair]

end Index

end Concordance
