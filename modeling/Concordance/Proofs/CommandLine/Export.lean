/-
An export is all pages. It asks for one page with room for every hit and for no contexts, so it lists the hits
that the pages of the same search list one after the other, without what is shown around the matches. Which
page is asked for changes neither the plan nor what the backend is asked, so an export and a page are refused
for the same reason.
-/
import Concordance.CommandLine.Run
import Concordance.Engine.Live
import Concordance.Proofs.Engine.Totals

namespace Concordance

/-- A hit as an export shows it, without its contexts. -/
def Hit.bare (h : Hit) : Hit := { h with contexts := [] }

/-! ## Pages -/

namespace Backend

variable (b : Backend) (p : Plan) (r : Request)

theorem bare_shown (h : Hit) : (b.shown r h).bare = h.bare := by
  obtain ⟨dataset, filename, filepath, pages, matchCount, -⟩ := b.shows_shown r h
  simp only [Hit.bare, dataset, filename, filepath, pages, matchCount]

/-- A request for no contexts shows bare hits. -/
theorem shown_eq_bare (hr : r.maxContexts = 0) (h : Hit) : b.shown r h = h.bare := by
  have shows := (b.shows_shown r h).contexts
  rw [hr, List.take_zero, List.forall₂_nil_left_iff] at shows
  rw [← b.bare_shown r h, Hit.bare, ← shows]

theorem map_bare_fullList : (b.fullList p r).map Hit.bare = (b.matching p r).map Hit.bare := by
  rw [fullList, List.map_map]
  exact List.map_congr_left fun h _ => b.bare_shown r h

/-- The pages of a request up to the first one that is empty are its full list. -/
theorem exists_last_page : ∃ last,
    (∀ n, 1 ≤ n → n ≤ last → (b.searchPlan p { r with page := n }).results ≠ []) ∧
      (b.searchPlan p { r with page := last + 1 }).results = [] ∧
      ((List.range last).flatMap fun i => (b.searchPlan p { r with page := i + 1 }).results) = b.fullList p r := by
  set n := max r.perPage 1 with hn
  set full := b.fullList p r with hfull
  have room : 0 < n := Nat.le_max_right _ _
  have cut : ∀ i, (b.searchPlan p { r with page := i + 1 }).results = (full.drop (i * n)).take n := by
    intro i
    rw [results_searchPlan, pageOf, Nat.max_eq_left (Nat.le_add_left 1 i), Nat.add_sub_cancel]
    rfl
  refine ⟨pageCount full.length n, ?_, ?_, ?_⟩
  · intro page hfirst hpage
    obtain ⟨i, rfl⟩ := Nat.exists_eq_add_of_le' hfirst
    have rest : i * n < full.length := (lt_pageCount room).1 hpage
    rw [cut, ← List.length_pos_iff, List.length_take, List.length_drop]
    omega
  · rw [cut, List.drop_of_length_le (le_pageCount_mul room _), List.take_nil]
  · simp only [cut]
    exact flatMap_pages_self full room

/-- One page with room for every document, without contexts, lists the bare hits. -/
theorem results_onePage {size : Nat} (hsize : b.stats.documents ≤ size) :
    (b.searchPlan p { r with page := 1, perPage := size, maxContexts := 0 }).results =
      (b.matching p r).map Hit.bare := by
  have bare : b.fullList p { r with page := 1, perPage := size, maxContexts := 0 } =
      (b.matching p r).map Hit.bare :=
    List.map_congr_left fun h _ => b.shown_eq_bare _ rfl h
  have fits : ((b.matching p r).map Hit.bare).length ≤ max size 1 := by
    rw [List.length_map]
    exact ((b.accountsFor_matching p r).length_le.trans hsize).trans (Nat.le_max_left _ _)
  rw [results_searchPlan, bare]
  show (((b.matching p r).map Hit.bare).drop (0 * max size 1)).take (max size 1) = _
  rw [Nat.zero_mul, List.drop_zero, List.take_of_length_le fits]

end Backend

/-! ## Open backends -/

namespace Live

section Questions

variable {backend : Backend} {f : Index.OpenFile} {d d' : Disk} {need : Need} {α : Type} (answer : Backend → α)

theorem ask_of_settle_error (hneed : need ≠ .nothing) {e : Error}
    (h : f.settle (d.tree.content f.id) d = (.error e, d')) :
    (((Live.mk backend (some f)).ask need answer).run d).1.1 =
      if f.emptied then askEmptied need answer else .error e := by
  cases need with
  | nothing => exact absurd rfl hneed
  | _ =>
    simp only [ask, bind, StateT.bind, StateT.run, get, getThe, MonadStateOf.get, StateT.get, pure, h]
    rfl

theorem ask_of_settle (hneed : need ≠ .nothing) {logged : Bool}
    (h : f.settle (d.tree.content f.id) d = (.ok logged, d')) :
    (((Live.mk backend (some f)).ask need answer).run d).1.1 =
      if f.emptied || (Index.isVoid (d.tree.content f.id) && !logged) then askEmptied need answer
      else ((Index.rowsOf (d.tree.content f.id)).mapError Error.storage).map fun _ => answer backend := by
  cases need with
  | nothing => exact absurd rfl hneed
  | _ =>
    simp only [ask, bind, StateT.bind, StateT.run, get, getThe, MonadStateOf.get, StateT.get, pure, h]
    cases Index.rowsOf (d.tree.content f.id) <;> rfl

end Questions

variable (l : Live) (d : Disk) (need : Need)

/-- An index without tables fails for its rows, and has nothing that matches. -/
theorem askEmptied_cases :
    (∀ {α : Type} (answer : Backend → α), askEmptied need answer = .ok (answer (.index (.ofRows .empty)))) ∨
      ∃ e, ∀ {α : Type} (answer : Backend → α), askEmptied need answer = .error e := by
  cases need with
  | nothing => exact .inl fun _ => rfl
  | matching => exact .inl fun _ => rfl
  | rows => exact .inr ⟨_, fun _ => rfl⟩

/--
All questions with the same needs are answered alike: from the backend that was opened, from an index that has
been found to hold nothing, or with the same error.
-/
theorem ask_cases :
    (∃ b, (b = l.backend ∨ b = .index (.ofRows .empty)) ∧
      ∀ {α : Type} (answer : Backend → α), ((l.ask need answer).run d).1.1 = .ok (answer b)) ∨
      ∃ e, ∀ {α : Type} (answer : Backend → α), ((l.ask need answer).run d).1.1 = .error e := by
  obtain ⟨backend, _ | f⟩ := l
  · exact .inl ⟨backend, .inl rfl, fun _ => rfl⟩
  by_cases hneed : need = .nothing
  · subst hneed
    exact .inl ⟨backend, .inl rfl, fun _ => rfl⟩
  have emptied := (askEmptied_cases need).imp_left fun h =>
    (⟨_, .inr rfl, h⟩ : ∃ b, (b = backend ∨ b = .index (.ofRows .empty)) ∧
      ∀ {α : Type} (answer : Backend → α), askEmptied need answer = .ok (answer b))
  rcases settled : f.settle (d.tree.content f.id) d with ⟨e | logged, d'⟩
  · simp only [ask_of_settle_error _ hneed settled]
    cases f.emptied with
    | true => exact emptied
    | false => exact .inr ⟨e, fun _ => rfl⟩
  · simp only [ask_of_settle _ hneed settled]
    cases f.emptied || (Index.isVoid (d.tree.content f.id) && !logged) with
    | true => exact emptied
    | false =>
      cases Index.rowsOf (d.tree.content f.id) with
      | ok rows => exact .inl ⟨backend, .inl rfl, fun _ => rfl⟩
      | error e => exact .inr ⟨.storage e, fun _ => rfl⟩

theorem search_of_plan {r : Request} {plan : Plan} (h : r.plan = .ok plan) :
    l.search r = l.ask (.ofPlan plan) fun b => b.searchPlan plan r := by
  unfold search
  rw [h]

theorem search_of_error {r : Request} {w : Warning} (h : r.plan = .error w) :
    ((l.search r).run d).1.1 = .error (.ambiguous w) := by
  unfold search
  rw [h]
  rfl

end Live

/-! ## Exports -/

/--
Is an export all pages of a search, one after the other until a page is empty, with each hit bare? Or are the
export and every page refused for the same reason?
-/
inductive ExportsPages (page : Nat → Except Error Response) : Except Error Response → Prop where
  | refused {e : Error} (each : ∀ n, page n = .error e) : ExportsPages page (.error e)
  | exported {answer : Nat → Response} {last : Nat} {all : Response}
      (each : ∀ n, page n = .ok (answer n))
      (hits : ∀ n, 1 ≤ n → n ≤ last → (answer n).results ≠ [])
      (past : (answer (last + 1)).results = [])
      (results : all.results = ((List.range last).flatMap fun i => (answer (i + 1)).results).map Hit.bare) :
      ExportsPages page (.ok all)

namespace Live

/--
For all options and queries, of any open backend that counts its documents in 64 bits, whatever has become of its
file.
-/
theorem search_exportRequest (l : Live) (hl : l.backend.stats.documents < UInt64.size) (d : Disk)
    (o : CommandLine.SearchOptions) (query : String) :
    ExportsPages (fun n => ((l.search ({ o with page := n }.request query)).run d).1.1)
      ((l.search (o.exportRequest query)).run d).1.1 := by
  -- the page is no part of the query, so all these requests have the same plan
  have same : ∀ n, ({ o with page := n }.request query).plan = (o.exportRequest query).plan := fun n => rfl
  cases plan : (o.exportRequest query).plan with
  | error w =>
    rw [l.search_of_error d plan]
    exact .refused fun n => l.search_of_error d ((same n).trans plan)
  | ok p =>
    rw [l.search_of_plan plan]
    simp only [fun n => l.search_of_plan ((same n).trans plan)]
    rcases l.ask_cases d (.ofPlan p) with ⟨b, hb, answers⟩ | ⟨e, refuses⟩
    · rw [answers]
      simp only [answers]
      have counts : b.stats.documents ≤ UInt64.size - 1 := by
        rcases hb with rfl | rfl
        · exact Nat.le_sub_one_of_lt hl
        · exact Nat.zero_le _
      obtain ⟨last, hits, past, pages⟩ := b.exists_last_page p (o.request query)
      refine .exported (fun n => rfl) hits past ?_
      have all := b.results_onePage p (o.request query) counts
      rw [← b.map_bare_fullList p (o.request query), ← pages] at all
      exact all
    · rw [refuses]
      exact .refused fun n => refuses _

/-! ## An export of two logs -/

/-- One hit a page, by name; the page that is asked for does not matter to an export. -/
def oneByOne : CommandLine.SearchOptions := ⟨.memory, none, 0, none, .filename, 7, 1, false, false, 100, true⟩

theorem search_exportRequest_wordLogs :
    let l := Live.ofScanner (Corpus.scanner (.ofDocuments Backend.wordLogs) oneByOne.scan)
    l.backend.stats.documents < UInt64.size ∧
      ExportsPages (fun n => ((l.search ({ oneByOne with page := n }.request "island OR log")).run .empty).1.1)
        ((l.search (oneByOne.exportRequest "island OR log")).run .empty).1.1 := by
  have few : (Backend.memory (Corpus.scanner (.ofDocuments Backend.wordLogs) oneByOne.scan)).stats.documents <
      UInt64.size := by decide +kernel
  exact ⟨few, search_exportRequest _ few _ _ _⟩

end Live

end Concordance
