/-
What a search for a term reports. It has a hit for each document in which the term occurs, in the order of the
corpus, and the hit lists the occurrences that a scan takes: each with its place in characters, what stands there,
the page of the place and the window around it.
-/
import Concordance.Proofs.Scan.Greedy
import Concordance.Proofs.Scan.Pages
import Concordance.Proofs.Scan.Window

namespace Concordance

open Text

open Scan

/-- The context of a run of a document's text: where it starts, the window around it, the run and its page. -/
def Document.contextAt (d : Document) (radius length place : Nat) : Context :=
  ⟨place, String.ofList (window d.text.toList place (place + length) radius),
    String.ofList ((d.text.toList.drop place).take length), d.pageAt? place⟩

namespace Scan.Pattern

/--
Are these the leftmost occurrences of a pattern that do not overlap, in order? Each is the first one at or behind
the end of the one before, so they are disjoint, and an occurrence left out overlaps one that starts earlier.
-/
structure IsListing (p : Pattern) (text : List Char) (places : List Nat) : Prop where
  findsFrom : p.FindsFrom text 0 places
  occur : ∀ place ∈ places, p.OccursIn text place
  apart : places.Pairwise fun i j => i < j ∧ i + p.letters.length ≤ j
  complete : ∀ i, p.OccursIn text i → i ∈ places ∨ ∃ j ∈ places, j < i ∧ i < j + p.letters.length

theorem FindsFrom.isListing {p : Pattern} {text : List Char} {places : List Nat} (h : p.FindsFrom text 0 places) :
    p.IsListing text places where
  findsFrom := h
  occur := h.occursIn_of_mem
  apart := h.pairwise.imp fun reach => ⟨lt_behind.trans_le reach, add_length_le_behind.trans reach⟩
  complete i occurs := h.mem_or_overlaps i (Nat.zero_le i) occurs

end Scan.Pattern

namespace Scanner

variable (s : Scanner) (p : Pattern) (d : Document)

/-! ## The hit for a document -/

/-- The contexts of the spans of a pattern are those of the places that a scan finds. -/
theorem contexts_spans {places : List Nat} (finds : p.FindsFrom d.text.toList 0 places) (radius : Nat) :
    contexts d radius ((places.map fun place => spanAt d.text.toList place p.letters.length).map fun span =>
        (span, String.ofList (span.textIn d.text.toList))) =
      places.map (d.contextAt radius p.letters.length) := by
  rw [contexts_eq_map, List.map_map, List.map_map]
  refine List.map_congr_left fun place found => ?_
  have inside := (finds.occursIn_of_mem place found).inside
  have around := excerpt_eq_window (Nat.le_add_right place p.letters.length) inside radius
  rw [← spanAt] at around
  dsimp only [Function.comp]
  rw [length_takeBytes_spanAt (by omega), textIn_spanAt, around, Document.contextAt]

theorem exists_findsFrom_find? :
    ∃ places, p.FindsFrom d.text.toList 0 places ∧
      s.find? p d =
        if places = [] then none
        else some (d.hit places.length (places.map (d.contextAt s.options.contextChars p.letters.length))) := by
  obtain ⟨places, finds, listed⟩ := p.exists_findsFrom d.text.toList
  refine ⟨places, finds, ?_⟩
  rw [find?, hit?, listed, contexts_spans p d finds]
  simp only [List.isEmpty_map, List.isEmpty_iff, List.length_map]

variable {s p d}

/-- There is a hit for a pattern in a document exactly if it occurs there. -/
theorem find?_ne_none_iff : s.find? p d ≠ none ↔ ∃ place, p.OccursIn d.text.toList place := by
  obtain ⟨places, finds, found⟩ := exists_findsFrom_find? s p d
  rw [found]
  split
  · rename_i none
    exact iff_of_false (fun some => some rfl) (finds.eq_nil_iff.1 none)
  · rename_i some
    exact iff_of_true (Option.some_ne_none _) (not_not.1 fun none => some (finds.eq_nil_iff.2 none))

theorem exists_findsFrom_of_find? {h : Hit} (hh : s.find? p d = some h) :
    ∃ places, p.FindsFrom d.text.toList 0 places ∧
      h = d.hit places.length (places.map (d.contextAt s.options.contextChars p.letters.length)) := by
  obtain ⟨places, finds, found⟩ := exists_findsFrom_find? s p d
  rw [found] at hh
  split at hh
  · cases hh
  · exact ⟨places, finds, (Option.some.inj hh).symm⟩

/-! ## The hits of a search -/

open Classical in
/--
A search has one hit for each document in which the term occurs, in the order of the documents, and no others. The
hit counts and lists the leftmost occurrences that do not overlap.
-/
theorem search_lists (s : Scanner) (t : Term) :
    let p := s.pattern t s.options.wholeWord
    List.Forall₂
      (fun d h => ∃ places, p.IsListing d.text.toList places ∧
        h = d.hit places.length (places.map (d.contextAt s.options.contextChars t.text.toList.length)))
      (s.documents.filter fun d => ∃ place, p.OccursIn d.text.toList place) (s.search t) := by
  intro p
  refine forall₂_filterMap (fun d h hh => ?_) (fun d => find?_ne_none_iff) s.documents
  obtain ⟨places, finds, hit⟩ := exists_findsFrom_of_find? hh
  exact ⟨places, finds.isListing, hit⟩

/-- Of two occurrences that overlap the earlier is listed, and the text goes on behind its window. -/
example :
    let d : Document := ⟨1, 1, "a.pdf", "DataSet 1/a.pdf", 1, "log log log island", some [0]⟩
    (Scanner.mk [d] ⟨false, false, 1⟩).search ⟨"LOG LOG", false⟩ =
      [d.hit 1 [⟨0, "log log ...", "log log", some 1⟩]] := by
  decide +kernel

end Scanner

end Concordance
