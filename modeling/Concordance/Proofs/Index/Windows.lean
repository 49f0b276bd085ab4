/-
Windows of a ranked search tile it. The rows that match are counted as they are found, while a window is cut from
them in the order of their rank, with a limit and an offset that are taken for numbers with a sign; what is searched
as a whole is not counted at all. But ranking drops no row, and an index has too few rows for a sign to matter, so
the windows put together are the search, hit for hit, and each tells its length.
-/
import Concordance.Proofs.Engine.Paging
import Concordance.Proofs.Index.Answers
import Mathlib.Data.List.Perm.Subperm
import Mathlib.Data.List.Sort

namespace Concordance.Index

/-! ## Windows -/

/-- The multiples of a limit that are below the length of a list: where its windows start. -/
def windowStarts (limit total : Nat) : List Nat := (List.range total).filter (limit ∣ ·)

/-- They are as many as there are pages of that size. -/
theorem windowStarts_eq {limit : Nat} (hl : 0 < limit) (total : Nat) :
    windowStarts limit total = (List.range (pageCount total limit)).map (· * limit) := by
  have rising : (windowStarts limit total).Pairwise (· < ·) := List.pairwise_lt_range.filter _
  have rising' : ((List.range (pageCount total limit)).map (· * limit)).Pairwise (· < ·) := by
    rw [List.pairwise_map]
    exact List.pairwise_lt_range.imp fun h => Nat.mul_lt_mul_of_pos_right h hl
  refine rising.eq_of_mem_iff rising' fun offset => ?_
  simp only [windowStarts, List.mem_filter, List.mem_range, decide_eq_true_eq, List.mem_map]
  constructor
  · rintro ⟨below, i, rfl⟩
    rw [Nat.mul_comm] at below ⊢
    exact ⟨i, (lt_pageCount hl).2 below, rfl⟩
  · rintro ⟨i, hi, rfl⟩
    exact ⟨(lt_pageCount hl).1 hi, Nat.dvd_mul_left limit i⟩

/-- A list is the windows of it that start before its end. -/
theorem flatMap_windowStarts {α : Type} (list : List α) {limit : Nat} (hl : 0 < limit) :
    ((windowStarts limit list.length).flatMap fun offset => (list.drop offset).take limit) = list := by
  rw [windowStarts_eq hl, List.flatMap_map, flatMap_pages_self list hl]

/-- In a list that is not too long a number that counts as negative is as good as the number itself. -/
theorem Limits.cut_eq {α : Type} {list : List α} {limit offset : Nat} (short : 2 * list.length ≤ UInt64.size)
    (inside : offset < list.length) : Limits.cut ⟨limit, offset⟩ list = (list.drop offset).take limit := by
  have skips : isNegative offset = false := by
    rw [isNegative, decide_eq_false_iff_not]
    omega
  rw [Limits.cut, skips]
  dsimp only
  split
  · rename_i negative
    rw [isNegative, decide_eq_true_eq] at negative
    refine (List.take_of_length_le ?_).symm
    rw [List.length_drop]
    omega
  · rfl

theorem Limits.cut_map {α β : Type} (f : α → β) (l : Limits) (list : List α) :
    l.cut (list.map f) = (l.cut list).map f := by
  unfold Limits.cut
  dsimp only
  split
  · rw [List.map_drop]
  · rw [List.map_take, List.map_drop]

theorem Limits.cut_nil {α : Type} (l : Limits) : l.cut ([] : List α) = [] := by
  simp only [Limits.cut, List.drop_nil, List.take_nil, ite_self]

/-! ## Rows -/

variable {ix : Index}

/-- Rows with distinct ids are no more than there are ids. -/
theorem length_entries_le (hk : (ix.entries.map (·.row.id)).Nodup) : ix.entries.length ≤ UInt32.size := by
  have distinct : (ix.entries.map (·.row.id.toNat)).Nodup := by
    have ids := hk.map fun _ _ => UInt32.toNat_inj.1
    rwa [List.map_map] at ids
  have numbers : ix.entries.map (·.row.id.toNat) ⊆ List.range UInt32.size := by
    intro n hn
    obtain ⟨e, -, rfl⟩ := List.mem_map.1 hn
    exact List.mem_range.2 e.row.id.toNat_lt
  have le := (distinct.subperm numbers).length_le
  rwa [List.length_map, List.length_range] at le

theorem BuiltFrom.nodup_ids {c : Corpus} {batchSize : Nat} (h : ix.BuiltFrom c batchSize) :
    (ix.entries.map (·.row.id)).Nodup := by
  obtain ⟨rows, rfl, hs⟩ := h.stores
  have ids := hs.ordered.nodup
  rwa [Index.ofRows, List.map_map]

theorem length_ranked_le (ix : Index) (q : Query) : (ix.ranked q).length ≤ ix.entries.length := by
  rw [(ranked_perm ix q).length_eq]
  exact List.length_filterMap_le _ _

/-! ## Scopes -/

theorem within_perm (s : Scope) {l m : List Found} (h : l.Perm m) : (s.within l).Perm (s.within m) := by
  unfold Scope.within
  split
  · exact h
  · exact h.filter _

/-- Rows are counted without being ranked, which makes no difference. -/
theorem count_eq (ix : Index) (q : Query) (s : Scope) : ix.count q s = (s.within (ix.ranked q)).length :=
  (within_perm s (ranked_perm ix q)).length_eq.symm

/-- The hits of a term, or of those only the hits in a dataset. -/
def searchWithin (ix : Index) (t : Term) (dataset : Option UInt32) : List Hit :=
  (ix.search t).filter fun h => dataset.all (h.dataset = ·)

/-- Whether rows are chosen by dataset before they are shown as hits, or the hits afterwards. -/
theorem searchWithin_eq (ix : Index) (t : Term) (s : Scope) :
    ix.searchWithin t s.dataset =
      (s.within (ix.ranked (interpret (termExpr t)))).map fun f => f.hit (interpret (termExpr t)) t.text := by
  rw [searchWithin, search, run_eq, List.filter_map]
  congr 1
  unfold Scope.within
  cases s.dataset with
  | none => exact List.filter_eq_self.2 fun _ _ => rfl
  | some d => rfl

theorem length_searchWithin (ix : Index) (t : Term) (s : Scope) :
    (ix.searchWithin t s.dataset).length = ix.count (interpret (termExpr t)) s := by
  rw [searchWithin_eq, List.length_map, count_eq]

/-- A window tells how long the search is and shows a part of it; a search without hits needs no part. -/
theorem searchPage_eq (ix : Index) (t : Term) (dataset : Option UInt32) (limit offset : Nat) :
    ix.searchPage t dataset limit offset =
      ⟨(ix.searchWithin t dataset).length, Limits.cut ⟨limit, offset⟩ (ix.searchWithin t dataset)⟩ := by
  let s : Scope := ⟨dataset, some ⟨limit, offset⟩⟩
  have total : (ix.searchWithin t dataset).length = ix.count (interpret (termExpr t)) s := ix.length_searchWithin t s
  have hits : ix.searchWithin t dataset = (s.within (ix.ranked (interpret (termExpr t)))).map _ :=
    ix.searchWithin_eq t s
  rw [searchPage, answer, fetch]
  dsimp only
  split
  · rename_i none
    have empty : ix.searchWithin t dataset = [] := List.length_eq_zero_iff.1 (total.trans none)
    rw [empty, Limits.cut_nil]
    rfl
  · rw [total, hits, Limits.cut_map]

/--
On an index whose rows have distinct ids the windows of a search by one limit, from its start and on as long as they
start before its end, put together are the search, of one dataset if one is given. Every window, wherever it starts,
tells the length of the search, and the windows of a search without hits are empty.
-/
theorem searchPage_windows (hk : (ix.entries.map (·.row.id)).Nodup) (t : Term) (dataset : Option UInt32)
    {limit : Nat} (hl : 1 ≤ limit) :
    let all := ix.searchWithin t dataset
    ((windowStarts limit all.length).flatMap fun offset => (ix.searchPage t dataset limit offset).hits) = all ∧
      (∀ offset, (ix.searchPage t dataset limit offset).total = all.length) ∧
      (all = [] → ∀ offset, ix.searchPage t dataset limit offset = ⟨0, []⟩) := by
  intro all
  have page (offset : Nat) : ix.searchPage t dataset limit offset = ⟨all.length, Limits.cut ⟨limit, offset⟩ all⟩ :=
    ix.searchPage_eq t dataset limit offset
  refine ⟨?tiled, fun offset => by rw [page], fun none offset => ?empty⟩
  case tiled =>
    -- an index has far less than 2^63 rows
    have short : 2 * all.length ≤ UInt64.size := by
      have rows : all.length ≤ UInt32.size :=
        calc all.length ≤ (ix.search t).length := List.length_filter_le _ _
          _ = (ix.ranked (interpret (termExpr t))).length := by rw [search, run_eq, List.length_map]
          _ ≤ ix.entries.length := ix.length_ranked_le _
          _ ≤ UInt32.size := length_entries_le hk
      calc 2 * all.length ≤ 2 * UInt32.size := Nat.mul_le_mul_left 2 rows
        _ ≤ UInt64.size := by decide
    calc ((windowStarts limit all.length).flatMap fun offset => (ix.searchPage t dataset limit offset).hits)
      _ = (windowStarts limit all.length).flatMap fun offset => (all.drop offset).take limit := by
        refine List.flatMap_congr fun offset ho => ?_
        have inside : offset < all.length := List.mem_range.1 (List.mem_of_mem_filter ho)
        rw [page, Limits.cut_eq short inside]
      _ = all := flatMap_windowStarts all hl
  case empty =>
    rw [page, none, Limits.cut_nil]
    rfl

/-! ## Islands -/

/-- Three documents with an island, two of them of dataset 1. -/
def islandDocs : List Document :=
  [⟨1, 1, "a.pdf", "a.pdf", 1, "log of an island", some [0]⟩, ⟨2, 2, "b.pdf", "b.pdf", 1, "island", some [0]⟩,
   ⟨3, 1, "c.pdf", "c.pdf", 1, "island, island", some [0]⟩]

/-- Two windows of one hit each are the search of dataset 1, and tell that there are two. -/
theorem searchPage_islands :
    ∃ ix : Index, ix.BuiltFrom (.ofDocuments islandDocs) 10000 ∧ (ix.entries.map (·.row.id)).Nodup ∧
      let island : Term := ⟨"island", false⟩
      let page := ix.searchPage island (some 1) 1
      1 ≤ 1 ∧ (ix.searchWithin island (some 1)).length = 2 ∧
        (page 0).hits ++ (page 1).hits = ix.searchWithin island (some 1) ∧ (page 0).total = 2 ∧ (page 1).total = 2 := by
  have built : (Index.ofRows ⟨islandDocs.map Row.ofDocument⟩).BuiltFrom (.ofDocuments islandDocs) 10000 :=
    builtFrom_iff.2 ⟨_, rfl, by decide, .refl _⟩
  refine ⟨_, built, built.nodup_ids, ?_⟩
  intro island page
  have two : ((Index.ofRows ⟨islandDocs.map Row.ofDocument⟩).searchWithin island (some 1)).length = 2 := by
    rw [length_searchWithin _ island ⟨some 1, none⟩]
    decide +kernel
  obtain ⟨tiled, totals, -⟩ := searchPage_windows built.nodup_ids island (some 1) (Nat.le_refl 1)
  rw [two] at tiled totals
  have starts : windowStarts 1 2 = [0, 1] := by decide
  rw [starts] at tiled
  exact ⟨Nat.le_refl 1, two, by simpa using tiled, totals 0, totals 1⟩

end Concordance.Index
