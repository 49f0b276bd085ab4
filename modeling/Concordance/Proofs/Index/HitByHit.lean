/-
Locating hit by hit. A list of hits with all their pages is left alone, and so is such a hit in any list, and in
any hit a context with a page; but to look them up would change nothing, so each hit is located as if it were
alone. Of a context without a page nothing but its position and page is set; what is found is found at the same
place again, and what is not found stays as it was, so that locating twice is locating once.
-/
import Concordance.Index.Locate
import Mathlib.Data.List.Forall2

namespace Concordance

open Index

/-- Where the row that a filename is looked up in has a snippet, and on which of so many pages, if it is known. -/
def Index.cite? (ix : Index) (filename : String) (pages : UInt32) (k : Context) : Option (Nat × Option Nat) :=
  (ix.rowOf? filename).bind fun r =>
    (locate? r.text.toList k).map fun position => (position, citedPage? r.offsets? position pages)

/--
Is the second context the first one, unless it had no page, and then but for its position and page, which are
those that were found if any were?
-/
structure Context.MovesTo (found : Option (Nat × Option Nat)) (k k' : Context) : Prop where
  excerpt : k'.excerpt = k.excerpt
  matched : k'.matched = k.matched
  kept : k.page ≠ none → k' = k
  placed : k.page = none → (k'.position, k'.page) = found.getD (k.position, k.page)

/-- Is the second hit the first one, but for positions and pages of contexts that had no page? -/
structure Hit.LocatesTo (ix : Index) (h h' : Hit) : Prop where
  dataset : h'.dataset = h.dataset
  filename : h'.filename = h.filename
  filepath : h'.filepath = h.filepath
  pages : h'.pages = h.pages
  matchCount : h'.matchCount = h.matchCount
  contexts : List.Forall₂ (fun k k' => k.MovesTo (ix.cite? h.filename h.pages k) k') h.contexts h'.contexts

namespace Index

variable (ix : Index)

/-! ## Contexts -/

section

variable (r : Row) (pages : UInt32)

theorem locateContext_of_page {k : Context} (h : k.page ≠ none) : locateContext r pages k = k := by
  rw [locateContext, if_pos (Option.isSome_iff_ne_none.2 h)]

/-- A context without a page goes where its snippet is found. -/
theorem locateContext_of_page_eq_none {k : Context} (h : k.page = none) :
    locateContext r pages k =
      match locate? r.text.toList k with
      | some position => { k with position, page := citedPage? r.offsets? position pages }
      | none => k := by
  rw [locateContext, h]
  rfl

theorem movesTo_locateContext (k : Context) :
    k.MovesTo ((locate? r.text.toList k).map fun position => (position, citedPage? r.offsets? position pages))
      (locateContext r pages k) := by
  by_cases hk : k.page = none
  · rw [locateContext_of_page_eq_none r pages hk]
    cases locate? r.text.toList k with
    | none => exact ⟨rfl, rfl, fun some => absurd hk some, fun _ => rfl⟩
    | some position => exact ⟨rfl, rfl, fun some => absurd hk some, fun _ => rfl⟩
  · rw [locateContext_of_page r pages hk]
    exact ⟨rfl, rfl, fun _ => rfl, fun none => absurd none hk⟩

/-- The place of a snippet is looked up by its text and label, so it is found where it was found before. -/
theorem locateContext_locateContext (k : Context) :
    locateContext r pages (locateContext r pages k) = locateContext r pages k := by
  by_cases hk : k.page = none
  · cases hp : locate? r.text.toList k with
    | none =>
      have lost : locateContext r pages k = k := by rw [locateContext_of_page_eq_none r pages hk, hp]
      rw [lost, lost]
    | some position =>
      let found : Context := { k with position, page := citedPage? r.offsets? position pages }
      have here : locateContext r pages k = found := by rw [locateContext_of_page_eq_none r pages hk, hp]
      have again : locate? r.text.toList found = some position := hp
      rw [here, locateContext, again]
      exact ite_self found
  · rw [locateContext_of_page r pages hk, locateContext_of_page r pages hk]

end

/-! ## Hits -/

variable {ix} {h : Hit}

theorem isLocated_iff : isLocated h = true ↔ ∀ k ∈ h.contexts, k.page ≠ none := by
  simp only [isLocated, List.all_eq_true, Option.isSome_iff_ne_none]

/-- A hit with all its pages is not looked up, but that would not change it. -/
theorem locateHit_of_rowOf? {r : Row} (hr : ix.rowOf? h.filename = some r) :
    ix.locateHit h = { h with contexts := h.contexts.map (locateContext r h.pages) } := by
  rw [locateHit, hr]
  split
  · rename_i located
    have same : h.contexts.map (locateContext r h.pages) = h.contexts.map id :=
      List.map_congr_left fun k hk => locateContext_of_page r h.pages (isLocated_iff.1 located k hk)
    rw [same, List.map_id]
  · rfl

theorem locateHit_of_rowOf?_eq_none (hr : ix.rowOf? h.filename = none) : ix.locateHit h = h := by
  rw [locateHit, hr]
  exact ite_self h

theorem locateHit_of_isLocated (located : isLocated h = true) : ix.locateHit h = h := if_pos located

variable (ix)

theorem locatesTo_locateHit (h : Hit) : h.LocatesTo ix (ix.locateHit h) := by
  cases hr : ix.rowOf? h.filename with
  | none =>
    rw [locateHit_of_rowOf?_eq_none hr]
    refine ⟨rfl, rfl, rfl, rfl, rfl, List.forall₂_same.2 fun k _ => ⟨rfl, rfl, fun _ => rfl, fun _ => ?_⟩⟩
    rw [cite?, hr]
    rfl
  | some r =>
    rw [locateHit_of_rowOf? hr]
    refine ⟨rfl, rfl, rfl, rfl, rfl, List.forall₂_map_right_iff.2 (List.forall₂_same.2 fun k _ => ?_)⟩
    rw [cite?, hr]
    exact movesTo_locateContext r h.pages k

/-- A hit keeps its filename, so it is looked up in the same row again. -/
theorem locateHit_locateHit (h : Hit) : ix.locateHit (ix.locateHit h) = ix.locateHit h := by
  cases hr : ix.rowOf? h.filename with
  | none => rw [locateHit_of_rowOf?_eq_none hr, locateHit_of_rowOf?_eq_none hr]
  | some r =>
    have twice : locateContext r h.pages ∘ locateContext r h.pages = locateContext r h.pages :=
      funext (locateContext_locateContext r h.pages)
    let located : Hit := { h with contexts := h.contexts.map (locateContext r h.pages) }
    have again : ix.locateHit located = { h with contexts := located.contexts.map (locateContext r h.pages) } :=
      locateHit_of_rowOf? hr
    rw [locateHit_of_rowOf? hr, again, List.map_map, twice]

/-! ## Lists of hits -/

/-- Whether or not a list is looked at, each of its hits comes out as if it were located alone. -/
theorem locate_eq_map (hits : List Hit) : ix.locate hits = hits.map ix.locateHit := by
  unfold locate
  split
  · rename_i all
    have same : hits.map ix.locateHit = hits.map id :=
      List.map_congr_left fun h hh => locateHit_of_isLocated (List.all_eq_true.1 all h hh)
    rw [same, List.map_id]
  · rfl

/--
Locating keeps the hits and their contexts, in number and in order, and everything of them but the position and
page of a context that had no page; these become what the row of the hit's filename gives for the context alone.
To locate again changes nothing, and each hit might as well be located by itself.
-/
theorem locate_hitByHit (hits : List Hit) :
    List.Forall₂ (Hit.LocatesTo ix) hits (ix.locate hits) ∧
      ix.locate (ix.locate hits) = ix.locate hits ∧
      ix.locate hits = hits.flatMap fun h => ix.locate [h] := by
  refine ⟨?_, ?_, ?_⟩
  · rw [locate_eq_map]
    exact List.forall₂_map_right_iff.2 (List.forall₂_same.2 fun h _ => ix.locatesTo_locateHit h)
  · rw [locate_eq_map, locate_eq_map, List.map_map]
    exact List.map_congr_left fun h _ => ix.locateHit_locateHit h
  · simp only [locate_eq_map, List.map_singleton]
    exact List.map_eq_flatMap

end Index

end Concordance
