/-
Which pages a scan cites. A corpus in the full format derives its page tables from the form feeds of its
texts, so each match of a scan is cited on the page that the form feeds before it say, however the match was
found and whatever characters the text holds.
-/
import Concordance.Engine.Open
import Concordance.Proofs.Corpus.Records
import Concordance.Proofs.Scan.Leftmost

namespace Concordance

open Text Scan

/-! ## Contexts -/

namespace Scanner

theorem contexts_eq_map (d : Document) (radius : Nat) (found : List (Span × String)) :
    contexts d radius found = found.map fun (span, matched) =>
      let position := (takeBytes span.start d.text.toList).length
      ⟨position, String.ofList (excerpt d.text.toList span radius), matched, d.pageAt? position⟩ := by
  unfold contexts
  dsimp only
  rw [Cursor.charOffsets_eq_map (Cursor.isIn_start _), List.map_map, List.zipWith_map_right, List.zipWith_self]
  rfl

/-- Are two runs of a text apart with at most so many words between them? -/
def WithinWords (text : List Char) (maxWords : Nat) (i length j length' : Nat) : Prop :=
  let start := min (i + length) (j + length')
  let stop := max i j
  start < stop ∧ (words ((text.drop start).take (stop - start))).length ≤ maxWords

theorem withinWords_of_isClose {text : List Char} {n i length j length' : Nat}
    (h : isClose text n (spanAt text i length) (spanAt text j length') = true) :
    WithinWords text n i length j length' := by
  unfold isClose gap? at h
  dsimp only [spanAt] at h
  rw [← byteLength_take_min, ← byteLength_take_max] at h
  split at h
  · rename_i bytes
    have apart : min (i + length) (j + length') < max i j := by
      by_contra none
      exact absurd bytes (Nat.not_lt.2 (byteLength_take_mono (Nat.not_lt.1 none)))
    let start := min (i + length) (j + length')
    have between : (spanAt text start (max i j - start)).textIn text = _ := textIn_spanAt _ _
    rw [spanAt, Nat.add_sub_cancel' apart.le] at between
    rw [between, Option.any_some, decide_eq_true_eq] at h
    exact ⟨apart, h⟩
  · cases h

end Scanner

/-! ## Hits in the order of the documents -/

open Classical in
/-- What is found for the members of a list is in the order of those for which something is found. -/
theorem forall₂_filterMap {α β : Type} {R : α → β → Prop} {P : α → Prop} {find : α → Option β}
    (related : ∀ a b, find a = some b → R a b) (finds : ∀ a, find a ≠ none ↔ P a) :
    ∀ list : List α, List.Forall₂ R (list.filter (P ·)) (list.filterMap find)
  | [] => .nil
  | a :: rest => by
    have ih := forall₂_filterMap related finds rest
    cases ha : find a with
    | none =>
      have out : ¬ P a := fun hp => (finds a).2 hp ha
      rw [List.filterMap_cons_none ha, List.filter_cons_of_neg (by simpa using out)]
      exact ih
    | some b =>
      have inside : P a := (finds a).1 (by simp [ha])
      rw [List.filterMap_cons_some ha, List.filter_cons_of_pos (by simpa using inside)]
      exact .cons (related a b ha) ih

/-! ## Citing -/

/-- Is a context on the page that the form feeds before its position say? -/
structure Document.PagesByBreaks (d : Document) (k : Context) : Prop where
  page : k.page =
    some (min (1 + (d.text.toList.take k.position).count Page.pageBreak) (Page.lastPage d.text.toList d.pages))
  /-- It is a number of 32 bits if that of the last page is, and a stated number of pages always is. -/
  small : Page.lastPage d.text.toList d.pages < UInt32.size → ∀ p ∈ k.page, p < UInt32.size

/-- Are these hits for documents of the list, one for each and in the order of the list, with such contexts? -/
def HitsFor (documents : List Document) (holds : Document → Context → Prop) (hits : List Hit) : Prop :=
  ∃ cited, cited.Sublist documents ∧
    List.Forall₂ (fun d h => h = d.hit h.contexts.length h.contexts ∧ ∀ k ∈ h.contexts, holds d k) cited hits

theorem hitsFor_filterMap {documents : List Document} {holds : Document → Context → Prop}
    {find : Document → Option Hit} (h : ∀ d ∈ documents, ∀ hit, find d = some hit →
      hit = d.hit hit.contexts.length hit.contexts ∧ ∀ k ∈ hit.contexts, holds d k) :
    HitsFor documents holds (documents.filterMap find) := by
  induction documents with
  | nil => exact ⟨[], .slnil, .nil⟩
  | cons d documents ih =>
    obtain ⟨cited, hsub, hall⟩ := ih fun e he => h e (List.mem_cons_of_mem _ he)
    cases hd : find d with
    | none =>
      rw [List.filterMap_cons_none hd]
      exact ⟨cited, hsub.cons d, hall⟩
    | some hit =>
      rw [List.filterMap_cons_some hd]
      exact ⟨d :: cited, hsub.cons_cons d, .cons (h d List.mem_cons_self hit hd) hall⟩

namespace Scanner

/-- What is found in a document with a derived table is cited by its form feeds. -/
theorem cite_hit? {s : Scanner} {d : Document} (hd : d.pageOffsets = some (Page.deriveOffsets d.text.toList))
    {found : List (Span × String)} {hit : Hit} (h : s.hit? d found = some hit) :
    hit = d.hit hit.contexts.length hit.contexts ∧
      ∀ k ∈ hit.contexts, d.PagesByBreaks k ∧
        ∃ m ∈ found, k.position = (takeBytes m.1.start d.text.toList).length ∧ k.matched = m.2 := by
  unfold hit? at h
  split at h
  · cases h
  · cases h
    have cited : ∀ position, d.pageAt? position =
        some (min (1 + (d.text.toList.take position).count Page.pageBreak) (Page.lastPage d.text.toList d.pages)) := by
      intro position
      rw [Document.pageAt?, citedPage?, hd, Option.filter_some, if_pos, Option.map_some, Page.pageAt_deriveOffsets]
      rw [Page.deriveOffsets_eq_cons]
      rfl
    have small : ∀ position, Page.lastPage d.text.toList d.pages < UInt32.size →
        ∀ p ∈ d.pageAt? position, p < UInt32.size := by
      intro position last p hp
      rw [cited, Option.mem_some_iff] at hp
      omega
    simp only [Document.hit, contexts_eq_map, List.length_map, true_and, List.forall_mem_map]
    exact fun m hm => ⟨⟨cited _, small _⟩, m, hm, rfl, rfl⟩

/-- The place in characters of an occurrence is that of its span. -/
theorem length_takeBytes_spanAt {text : List Char} {place length : Nat} (h : place ≤ text.length) :
    (takeBytes (spanAt text place length).start text).length = place := by
  rw [spanAt, takeBytes_take, List.length_take, Nat.min_eq_left h]

theorem length_takeBytes_hull {text : List Char} {i length j length' : Nat} (hi : i ≤ text.length)
    (hj : j ≤ text.length) :
    (takeBytes (hull (spanAt text i length) (spanAt text j length')).start text).length = min i j := by
  rw [hull, spanAt, spanAt, ← byteLength_take_min, takeBytes_take, List.length_take, Nat.min_eq_left (by omega)]

end Scanner

open Scanner in
/--
In a corpus in the full format every context of every hit stands where the match starts, for a pair where the
earlier of the two occurrences does, and is cited on the page that the form feeds before it say.
-/
theorem Corpus.scanner_cites_form_feeds {source : Option String} {text : String} {c : Corpus}
    (h : Corpus.ofText source text = .ok c) (hf : c.format = .full) (options : Scan.Options) :
    let s := c.scanner options
    (∀ t : Term,
      HitsFor c.documents
        (fun d k => d.PagesByBreaks k ∧ (s.pattern t options.wholeWord).OccursIn d.text.toList k.position ∧
          k.matched = String.ofList ((d.text.toList.drop k.position).take t.text.toList.length))
        (s.search t)) ∧
      ∀ (a b : Term) (n : UInt32),
        HitsFor c.documents
          (fun d k => d.PagesByBreaks k ∧ k.matched = a.text ++ "..." ++ b.text ∧
            ∃ i j, (s.pattern a false).OccursIn d.text.toList i ∧ (s.pattern b false).OccursIn d.text.toList j ∧
              WithinWords d.text.toList n.toNat i a.text.toList.length j b.text.toList.length ∧ k.position = min i j)
          (s.searchProximity a b n) := by
  intro s
  refine ⟨fun t => hitsFor_filterMap fun d hd hit hhit => ?_, fun a b n => hitsFor_filterMap fun d hd hit hhit => ?_⟩
  · obtain ⟨hdoc, hks⟩ := cite_hit? (pageOffsets_of_full h hf hd) hhit
    refine ⟨hdoc, fun k hk => ?_⟩
    obtain ⟨page, m, hm, position, matched⟩ := hks k hk
    obtain ⟨span, hspan, rfl⟩ := List.mem_map.1 hm
    obtain ⟨place, occurs, rfl⟩ := Pattern.mem_spans hspan
    have here := occurs.inside
    rw [length_takeBytes_spanAt (by omega)] at position
    rw [textIn_spanAt] at matched
    exact ⟨page, position ▸ occurs, position ▸ matched⟩
  · obtain ⟨hdoc, hks⟩ := cite_hit? (pageOffsets_of_full h hf hd) hhit
    refine ⟨hdoc, fun k hk => ?_⟩
    obtain ⟨page, m, hm, position, matched⟩ := hks k hk
    obtain ⟨⟨x, y⟩, hpair, rfl⟩ := List.mem_map.1 hm
    obtain ⟨hx, hy, close⟩ := mem_closePairs hpair
    obtain ⟨i, occurs, rfl⟩ := Pattern.mem_spans hx
    obtain ⟨j, occurs', rfl⟩ := Pattern.mem_spans hy
    have here := occurs.inside
    have here' := occurs'.inside
    rw [length_takeBytes_hull (by omega) (by omega)] at position
    exact ⟨page, matched, i, j, occurs, occurs', withinWords_of_isClose close, position⟩

/-- A corpus of one file whose text has three parts, and which is said to have two pages. -/
def logbook : String :=
  "\x7b\"datasets\":[\x7b\"dataset_number\":3,\"files\":[\x7b\"filename\":\"a.pdf\",\"filepath\":\"a.pdf\"," ++
    "\"full_text\":\"caf\u00e9\\fisland log\\fisland\",\"pages\":2\x7d]\x7d]\x7d"

/-- Whole words in the logbook, whatever their case. -/
theorem logbook_cites_form_feeds :
    ∃ c, Corpus.ofText none logbook = .ok c ∧ c.format = .full ∧ c.documents.length = 1 ∧
      HitsFor c.documents
        (fun d k => d.PagesByBreaks k ∧
          ((c.scanner ⟨false, true, 300⟩).pattern ⟨"Island", false⟩ true).OccursIn d.text.toList k.position ∧
          k.matched = String.ofList ((d.text.toList.drop k.position).take 6))
        ((c.scanner ⟨false, true, 300⟩).search ⟨"Island", false⟩) := by
  have read :
      (Corpus.ofText none logbook).toOption.map (fun c => (c.format, c.documents.length)) = some (.full, 1) := by
    decide +kernel
  cases h : Corpus.ofText none logbook with
  | error e =>
    rw [h] at read
    cases read
  | ok c =>
    rw [h] at read
    have known : (c.format, c.documents.length) = (.full, 1) := Option.some.inj read
    obtain ⟨full, one⟩ := Prod.mk.inj known
    exact ⟨c, rfl, full, one, (Corpus.scanner_cites_form_feeds h full ⟨false, true, 300⟩).1 ⟨"Island", false⟩⟩

end Concordance
