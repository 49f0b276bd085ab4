/-
Pages tile the result. All pages of a request are cut from one list, the hits that match in their order, and
what is shown of a hit depends on the hit alone. So the pages put together are that list, each hit once, and
every page but the last is full.
-/
import Concordance.Engine.Evaluate
import Concordance.Proofs.Index.HitByHit
import Mathlib.Data.List.Basic
import Mathlib.Data.List.Forall2
import Mathlib.Tactic

namespace Concordance

/-! ## Orders -/

namespace SortOrder

/-- Has the first hit to stand before the second? -/
def Precedes : SortOrder → Hit → Hit → Prop
  | relevance, a, b => b.matchCount < a.matchCount
  | filename, a, b => a.filename < b.filename
  | dataset, a, b => a.dataset < b.dataset ∨ a.dataset = b.dataset ∧ a.filename < b.filename

/-- Are two hits alike in all that the order looks at? -/
def Ties : SortOrder → Hit → Hit → Bool
  | relevance, a, b => a.matchCount = b.matchCount
  | filename, a, b => a.filename = b.filename
  | dataset, a, b => a.dataset = b.dataset && a.filename = b.filename

/-- Is the second list the first one put in order, with hits that tie left in the order in which they were? -/
structure StablySorts (order : SortOrder) (hits sorted : List Hit) : Prop where
  perm : sorted.Perm hits
  ordered : sorted.Pairwise fun a b => ¬ order.Precedes b a
  stable : ∀ a, sorted.filter (order.Ties a) = hits.filter (order.Ties a)

variable {order : SortOrder} {a b c : Hit}

theorem le_iff_not_precedes : order.le a b = true ↔ ¬ order.Precedes b a := by
  cases order with
  | relevance => simp only [le, Precedes, decide_eq_true_eq, Nat.not_lt]
  | filename => simp only [le, Precedes, decide_eq_true_eq, String.not_lt]
  | dataset =>
    simp only [le, Precedes, Bool.or_eq_true, Bool.and_eq_true, decide_eq_true_eq, not_or, not_and,
      UInt32.not_lt, String.not_lt]
    constructor
    · rintro (h | ⟨h, hf⟩)
      · exact ⟨UInt32.le_of_lt h, fun he => absurd (he ▸ h) (UInt32.lt_irrefl _)⟩
      · exact ⟨UInt32.le_of_eq h, fun _ => hf⟩
    · rintro ⟨h, hf⟩
      rcases UInt32.lt_or_eq_of_le h with h | h
      · exact .inl h
      · exact .inr ⟨h, hf h.symm⟩

theorem le_chain (order : SortOrder) (a b c : Hit) (hab : order.le a b = true) (hbc : order.le b c = true) :
    order.le a c = true := by
  cases order with
  | relevance =>
    simp only [le, decide_eq_true_eq] at *
    omega
  | filename =>
    simp only [le, decide_eq_true_eq] at *
    exact String.le_trans hab hbc
  | dataset =>
    simp only [le, Bool.or_eq_true, Bool.and_eq_true, decide_eq_true_eq] at *
    rcases hab with hab | ⟨hab, hf⟩ <;> rcases hbc with hbc | ⟨hbc, hg⟩
    · exact .inl (UInt32.lt_trans hab hbc)
    · exact .inl (hbc ▸ hab)
    · exact .inl (hab ▸ hbc)
    · exact .inr ⟨hab.trans hbc, String.le_trans hf hg⟩

theorem le_either (order : SortOrder) (a b : Hit) : (order.le a b || order.le b a) = true := by
  cases order with
  | relevance =>
    simp only [le, Bool.or_eq_true, decide_eq_true_eq]
    exact Nat.le_total _ _
  | filename =>
    simp only [le, Bool.or_eq_true, decide_eq_true_eq]
    exact String.le_total _ _
  | dataset =>
    simp only [le, Bool.or_eq_true, Bool.and_eq_true, decide_eq_true_eq]
    by_cases h : a.dataset = b.dataset
    · exact (String.le_total a.filename b.filename).imp (fun hf => .inr ⟨h, hf⟩) fun hf => .inr ⟨h.symm, hf⟩
    · exact (UInt32.lt_or_lt_of_ne h).imp .inl .inl

/-- Hits that tie with the same hit may stand in any order. -/
theorem le_of_ties (hb : order.Ties a b = true) (hc : order.Ties a c = true) : order.le b c = true := by
  cases order with
  | relevance =>
    simp only [Ties, le, decide_eq_true_eq] at *
    omega
  | filename =>
    simp only [Ties, le, decide_eq_true_eq] at *
    have same : b.filename = c.filename := hb.symm.trans hc
    exact same ▸ String.le_refl _
  | dataset =>
    simp only [Ties, le, Bool.or_eq_true, Bool.and_eq_true, decide_eq_true_eq] at *
    have same : b.filename = c.filename := hb.2.symm.trans hc.2
    exact .inr ⟨hb.1.symm.trans hc.1, same ▸ String.le_refl _⟩

theorem stablySorts_sort (order : SortOrder) (hits : List Hit) : order.StablySorts hits (order.sort hits) where
  perm := List.mergeSort_perm hits order.le
  ordered := (List.pairwise_mergeSort order.le_chain order.le_either hits).imp le_iff_not_precedes.1
  stable := by
    intro a
    -- the hits that tie may stand as they were, so the sort has left them so
    have tied : (hits.filter (order.Ties a)).Pairwise fun b c => order.le b c = true :=
      List.pairwise_of_forall_mem_list fun b hb c hc =>
        le_of_ties (List.mem_filter.1 hb).2 (List.mem_filter.1 hc).2
    have kept : (hits.filter (order.Ties a)).Sublist (order.sort hits) :=
      List.sublist_mergeSort order.le_chain order.le_either tied List.filter_sublist
    have inside := kept.filter (order.Ties a)
    rw [List.filter_filter] at inside
    simp only [Bool.and_self] at inside
    exact (inside.eq_of_length ((List.mergeSort_perm hits order.le).filter _).length_eq.symm).symm

theorem ties_self (order : SortOrder) (a : Hit) : order.Ties a a = true := by
  cases order <;> simp [Ties]

/-- Hits of which neither has to stand before the other tie. -/
theorem ties_of_not_precedes (hab : ¬ order.Precedes a b) (hba : ¬ order.Precedes b a) : order.Ties a b = true := by
  cases order with
  | relevance =>
    simp only [Precedes, Ties, decide_eq_true_eq] at *
    omega
  | filename =>
    simp only [Precedes, Ties, decide_eq_true_eq, String.not_lt] at *
    exact String.le_antisymm hba hab
  | dataset =>
    simp only [Precedes, Ties, Bool.and_eq_true, decide_eq_true_eq, not_or, not_and, UInt32.not_lt, String.not_lt] at *
    have same : a.dataset = b.dataset := UInt32.le_antisymm hba.1 hab.1
    exact ⟨same, String.le_antisymm (hba.2 same.symm) (hab.2 same)⟩

/-- Two lists in order are one if hits that tie stand alike in both. -/
theorem eq_of_ordered : ∀ {s t : List Hit}, s.Pairwise (fun a b => ¬ order.Precedes b a) →
    t.Pairwise (fun a b => ¬ order.Precedes b a) → (∀ x, s.filter (order.Ties x) = t.filter (order.Ties x)) → s = t
  | [], [], _, _, _ => rfl
  | [], y :: t, _, _, h => by
    have hy := h y
    rw [List.filter_nil, List.filter_cons_of_pos (order.ties_self y)] at hy
    cases hy
  | x :: s, [], _, _, h => by
    have hx := h x
    rw [List.filter_nil, List.filter_cons_of_pos (order.ties_self x)] at hx
    cases hx
  | x :: s, y :: t, hs, ht, h => by
    obtain ⟨first, later⟩ := List.pairwise_cons.1 hs
    obtain ⟨first', later'⟩ := List.pairwise_cons.1 ht
    -- the hits that tie with the head of one list start with it in the other too
    have hx : x ∈ (y :: t).filter (order.Ties x) := h x ▸ List.mem_filter.2 ⟨List.mem_cons_self, order.ties_self x⟩
    have hy : y ∈ (x :: s).filter (order.Ties y) := h y ▸ List.mem_filter.2 ⟨List.mem_cons_self, order.ties_self y⟩
    have head : x = y := by
      rcases List.mem_cons.1 (List.mem_of_mem_filter hx) with he | hx
      · exact he
      · rcases List.mem_cons.1 (List.mem_of_mem_filter hy) with he | hy
        · exact he.symm
        · have tie : order.Ties x y = true := ties_of_not_precedes (first' x hx) (first y hy)
          have heads := h x
          rw [List.filter_cons_of_pos (order.ties_self x), List.filter_cons_of_pos tie] at heads
          exact (List.cons.inj heads).1
    subst head
    have rest : s = t := by
      refine eq_of_ordered later later' fun z => ?_
      have hz := h z
      rw [List.filter_cons, List.filter_cons] at hz
      split at hz
      · exact (List.cons.inj hz).2
      · exact hz
    rw [rest]

/-- A list is put in order in one way only: where hits that tie stand alike in two lists, so they do in order. -/
theorem sort_eq_of_ties {l m : List Hit} (h : ∀ x, l.filter (order.Ties x) = m.filter (order.Ties x)) :
    order.sort l = order.sort m := by
  have hl := stablySorts_sort order l
  have hm := stablySorts_sort order m
  refine eq_of_ordered hl.ordered hm.ordered fun x => ?_
  rw [hl.stable, hm.stable, h]

end SortOrder

/-! ## What is shown of a hit -/

/-- Does a page show a hit so: with all but its contexts unchanged, and of these the first few, located? -/
structure Hit.Shows (limit : Nat) (h shown : Hit) : Prop where
  dataset : shown.dataset = h.dataset
  filename : shown.filename = h.filename
  filepath : shown.filepath = h.filepath
  pages : shown.pages = h.pages
  matchCount : shown.matchCount = h.matchCount
  contexts : List.Forall₂ (fun k k' : Context => k'.excerpt = k.excerpt ∧ k'.matched = k.matched)
    (h.contexts.take limit) shown.contexts

namespace Backend

variable (b : Backend) (p : Plan) (r : Request)

/-- Finds the positions and pages of one hit. -/
def locateHit : Backend → Hit → Hit
  | memory _ => id
  | index ix => ix.locateHit

/-- Each hit is located alone. -/
theorem locate_eq_map (hits : List Hit) : b.locate hits = hits.map b.locateHit := by
  cases b with
  | memory => exact (List.map_id _).symm
  | index ix => exact ix.locate_eq_map hits

/-- What a page shows of a hit. -/
def shown (h : Hit) : Hit := b.locateHit { h with contexts := h.contexts.take r.maxContexts }

theorem shows_shown (h : Hit) : h.Shows r.maxContexts (b.shown r h) := by
  cases b with
  | memory => exact ⟨rfl, rfl, rfl, rfl, rfl, List.forall₂_same.2 fun _ _ => ⟨rfl, rfl⟩⟩
  | index ix =>
    obtain ⟨dataset, filename, filepath, pages, matchCount, contexts⟩ :=
      ix.locatesTo_locateHit { h with contexts := h.contexts.take r.maxContexts }
    exact ⟨dataset, filename, filepath, pages, matchCount, contexts.imp fun _ _ moves => ⟨moves.excerpt, moves.matched⟩⟩

/-- All the hits of a request, in order and as they are shown. -/
def fullList : List Hit := (b.matching p r).map (b.shown r)

/-- A page is cut from the full list. -/
theorem results_searchPlan :
    (b.searchPlan p r).results = pageOf (b.fullList p r) (max r.page 1) (max r.perPage 1) := by
  unfold searchPlan fullList pageOf
  simp only [locate_eq_map, List.map_map, List.map_take, List.map_drop]
  rfl

theorem totalOf_map_shown (hits : List Hit) :
    totalOf (·.matchCount) (hits.map (b.shown r)) = totalOf (·.matchCount) hits := by
  induction hits with
  | nil => rfl
  | cons h rest ih => simp only [List.map_cons, totalOf, ih, (b.shows_shown r h).matchCount]

end Backend

/-! ## Cutting a list into pages -/

section Pages

variable {α : Type} (l : List α) {n : Nat}

/-- How many pages of so many items it takes for all the items. -/
def pageCount (total perPage : Nat) : Nat := (total + perPage - 1) / perPage

theorem lt_pageCount {total i : Nat} (hn : 0 < n) : i < pageCount total n ↔ i * n < total := by
  rw [pageCount, Nat.lt_iff_add_one_le, Nat.le_div_iff_mul_le hn, Nat.add_one_mul]
  omega

theorem flatMap_pages (n k : Nat) : ((List.range k).flatMap fun i => (l.drop (i * n)).take n) = l.take (k * n) := by
  induction k with
  | zero => simp
  | succ k ih =>
    rw [List.range_succ, List.flatMap_append, ih, Nat.add_one_mul, List.take_add]
    simp only [List.flatMap_cons, List.flatMap_nil, List.append_nil]

theorem le_pageCount_mul (hn : 0 < n) (total : Nat) : total ≤ pageCount total n * n :=
  Nat.le_of_not_lt fun h => absurd ((lt_pageCount hn).2 h) (Nat.lt_irrefl _)

/-- A list is its pages, one after the other. -/
theorem flatMap_pages_self (hn : 0 < n) :
    ((List.range (pageCount l.length n)).flatMap fun i => (l.drop (i * n)).take n) = l := by
  rw [flatMap_pages, List.take_of_length_le (le_pageCount_mul hn _)]

end Pages

/-! ## Tiling -/

/--
Do the pages of a request tile a list? Only the page is varied, and of a page with room for all hits its size.
-/
structure Backend.PagesTile (b : Backend) (p : Plan) (r : Request) (n : Nat) (full : List Hit) : Prop where
  /-- A first page with room for all hits is the list. -/
  whole : ∀ size, full.length ≤ size → (b.searchPlan p { r with page := 1, perPage := size }).results = full
  /-- All pages tell the same totals, and those of the list. -/
  totals : ∀ page, (b.searchPlan p { r with page }).total = full.length ∧
    (b.searchPlan p { r with page }).totalMatches = totalOf (·.matchCount) full
  /-- The pages one after the other are the list. -/
  tiled : ((List.range (pageCount full.length n)).flatMap fun i =>
    (b.searchPlan p { r with page := i + 1 }).results) = full
  /-- All but the last are full. -/
  filled : ∀ page, 1 ≤ page → page < pageCount full.length n →
    (b.searchPlan p { r with page }).results.length = n
  /-- Pages after the last are empty. -/
  past : ∀ page, 1 ≤ page → pageCount full.length n < page → (b.searchPlan p { r with page }).results = []
  /-- There is no page before the first. -/
  zeroth : b.searchPlan p { r with page := 0 } = b.searchPlan p { r with page := 1 }
  /-- The list is what is found and admitted, put in order. -/
  sorted : ∃ hits, r.sort.StablySorts ((b.evaluate p).filter r.admits) hits ∧
    List.Forall₂ (Hit.Shows r.maxContexts) hits full
  /-- Counting the hits to skip may stop at any number that there cannot be more hits than. -/
  skipped : ∀ page limit, full.length ≤ limit →
    (b.searchPlan p { r with page }).results = (full.drop (min ((max page 1 - 1) * n) limit)).take n

/-- For any backend, plan and request, pages tile the full list. -/
theorem Backend.searchPlan_pagesTile (b : Backend) (p : Plan) (r : Request) :
    b.PagesTile p r (max r.perPage 1)
      (b.searchPlan p { r with page := 1, perPage := (b.searchPlan p r).total }).results := by
  set n := max r.perPage 1 with hn
  have hpos : 0 < n := by omega
  have room : ∀ size, (b.fullList p r).length ≤ size →
      (b.searchPlan p { r with page := 1, perPage := size }).results = b.fullList p r := by
    intro size hsize
    rw [results_searchPlan]
    unfold pageOf
    rw [Nat.max_self, Nat.sub_self, Nat.zero_mul, List.drop_zero]
    exact List.take_of_length_le (hsize.trans (Nat.le_max_left _ _))
  have total : (b.searchPlan p r).total = (b.fullList p r).length := by
    rw [fullList, List.length_map]
    rfl
  rw [room _ total.ge]
  have cut : ∀ page, (b.searchPlan p { r with page }).results =
      ((b.fullList p r).drop ((max page 1 - 1) * n)).take n := fun page => results_searchPlan b p { r with page }
  refine ⟨room, fun page => ⟨total, (b.totalOf_map_shown r _).symm⟩, ?tiled, ?filled, ?past, rfl, ?sorted, ?skipped⟩
  case tiled =>
    have upTo : (b.fullList p r).length ≤ pageCount (b.fullList p r).length n * n := by
      by_contra h
      exact absurd ((lt_pageCount hpos).2 (Nat.lt_of_not_le h)) (Nat.lt_irrefl _)
    simp only [cut, Nat.max_eq_left (Nat.le_add_left 1 _), Nat.add_sub_cancel]
    rw [flatMap_pages, List.take_of_length_le upTo]
  case filled =>
    intro page hfirst hpage
    have more : page * n < (b.fullList p r).length := (lt_pageCount hpos).1 hpage
    have split : page * n = (page - 1) * n + n := by
      rw [← Nat.add_one_mul, Nat.sub_add_cancel hfirst]
    rw [cut, Nat.max_eq_left hfirst, List.length_take, List.length_drop]
    omega
  case past =>
    intro page hfirst hpage
    have none : ¬ (page - 1) * n < (b.fullList p r).length := by
      rw [← lt_pageCount hpos]
      omega
    rw [cut, Nat.max_eq_left hfirst, List.drop_of_length_le (Nat.le_of_not_lt none), List.take_nil]
  case sorted =>
    refine ⟨b.matching p r, SortOrder.stablySorts_sort _ _, ?_⟩
    exact List.forall₂_map_right_iff.2 (List.forall₂_same.2 fun h _ => b.shows_shown r h)
  case skipped =>
    intro page limit hlimit
    rw [cut]
    rcases Nat.le_total ((max page 1 - 1) * n) limit with h | h
    · rw [Nat.min_eq_left h]
    · rw [Nat.min_eq_right h, List.drop_of_length_le (hlimit.trans h), List.drop_of_length_le hlimit]

end Concordance
