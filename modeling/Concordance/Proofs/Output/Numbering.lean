/-
Printed numbers run through the whole result. A page is printed from what it knows itself: its hits, its own number,
its size and the total. Yet the titles of all pages number the hits from one to the total, and a page that does not
show all of them names the first and the last number that it prints.
-/
import Concordance.Output.Results
import Concordance.Proofs.Engine.Paging
import Concordance.Proofs.Text.Decimal
import Mathlib.Algebra.Order.Floor.Div

namespace Concordance

open Text

namespace Output

/-! ## Kinds of lines -/

/-- The line with the number and the name of a hit. -/
def titleLine (n : Nat) (h : Hit) : String :=
  decimalText n ++ ". " ++ h.filename ++ " (Data Set " ++ decimalText h.dataset.toNat ++ ")"

/-- Does a line start with a digit, as only titles do? -/
def isTitle (line : String) : Bool := line.toList.head?.any Char.isDigit

/-- The titles among lines. -/
def titles (lines : List String) : List String := lines.filter isTitle

/-- The lines that start with a text. -/
def starting (start : String) (lines : List String) : List String := lines.filter (·.startsWith start)

/-- Does a line start as warnings, rules, indented lines and the line of the totals do, or is it blank? -/
def isFrame (line : String) : Bool := line.toList.head?.all fun c => ['⚠', '═', ' ', 'F'].contains c

variable {kind : String → Bool} {n : Nat} {h : Hit} {r : Response}

theorem isFrame_of_isTitle (line : String) (title : isTitle line = true) : isFrame line = false := by
  unfold isTitle at title
  unfold isFrame
  cases hc : line.toList.head? with
  | none => rw [hc] at title; cases title
  | some c =>
    rw [hc, Option.any_some] at title
    by_contra frame
    simp only [Option.all_some, List.contains_eq_mem, decide_eq_false_iff_not, List.mem_cons, List.not_mem_nil,
      or_false, not_not] at frame
    rcases frame with rfl | rfl | rfl | rfl <;> revert title <;> decide

theorem isTitle_titleLine (n : Nat) (h : Hit) : isTitle (titleLine n h) = true := by
  obtain ⟨d, rest, digits⟩ := List.exists_cons_of_ne_nil (decimal_ne_nil n)
  have digit : d.isDigit = true := isDigit_of_mem_decimal (digits ▸ List.mem_cons_self)
  have head : (titleLine n h).toList.head? = some d := by
    simp only [titleLine, decimalText, String.toList_append, String.toList_ofList, digits, List.cons_append,
      List.head?_cons]
  rw [isTitle, head, Option.any_some, digit]

section

variable {line start : String} {c : Char}

theorem startsWith_append (start rest : String) : (start ++ rest).startsWith start = true := by
  rw [String.startsWith_string_iff, String.toList_append]
  exact List.prefix_append _ _

theorem head?_of_startsWith (h : line.startsWith start = true) (hc : start.toList.head? = some c) :
    line.toList.head? = some c := by
  obtain ⟨rest, whole⟩ := String.startsWith_string_iff.1 h
  rw [← whole, List.head?_append, hc, Option.some_or]

theorem isFrame_append (rest : String) (hc : start.toList.head? = some c)
    (frame : ['⚠', '═', ' ', 'F'].contains c = true) : isFrame (start ++ rest) = true := by
  rw [isFrame, head?_of_startsWith (startsWith_append start rest) hc, Option.all_some, frame]

theorem isFrame_of_startsWith (hc : start.toList.head? = some c) (other : ['⚠', '═', ' ', 'F'].contains c = false)
    (line : String) (h : line.startsWith start = true) : isFrame line = false := by
  rw [isFrame, head?_of_startsWith h hc, Option.all_some, other]

theorem isTitle_of_startsWith (h : line.startsWith start = true) (hc : start.toList.head? = some c)
    (other : c.isDigit = false) : isTitle line = false := by
  rw [isTitle, head?_of_startsWith h hc, Option.any_some, other]

end

theorem startsWith_line (p : Part) : p.line.startsWith "Showing " = true := by
  unfold Part.line
  simp only [String.append_assoc]
  exact startsWith_append _ _

/-! ## Lines of a page -/

/-- Below its title, the lines of a hit are indented or blank. -/
theorem isFrame_of_mem_tail_hitLines {line : String} (hline : line ∈ (hitLines n h).tail) : isFrame line = true := by
  simp only [hitLines, contextLines, String.append_assoc, List.append_assoc, List.cons_append, List.nil_append,
    List.tail_cons, List.mem_cons, List.mem_append, List.mem_flatten, List.mem_mapIdx, List.mem_ite_nil_right,
    List.not_mem_nil, or_false] at hline
  rcases hline with rfl | rfl | ⟨lines, ⟨i, hi, rfl⟩, hline⟩ | ⟨-, rfl | rfl⟩ | rfl
  · exact isFrame_append _ rfl rfl
  · exact isFrame_append _ rfl rfl
  · simp only [List.mem_cons, List.not_mem_nil, or_false] at hline
    rcases hline with rfl | rfl | rfl
    · rfl
    · exact isFrame_append _ rfl rfl
    · exact isFrame_append _ rfl rfl
  · rfl
  · exact isFrame_append _ rfl rfl
  · rfl

theorem isFrame_of_mem_warnings {line : String} (hline : line ∈ r.warnings.map fun w => "⚠ " ++ w.message) :
    isFrame line = true := by
  obtain ⟨w, -, rfl⟩ := List.mem_map.1 hline
  exact isFrame_append _ rfl rfl

theorem isFrame_rule : isFrame rule = true := by
  rw [rule, repeated, isFrame, String.toList_ofList]
  rfl

section

-- a kind of lines none of which is framing
variable (hk : ∀ line, kind line = true → isFrame line = false)

include hk

theorem filter_of_isFrame {lines : List String} (frame : ∀ line ∈ lines, isFrame line = true) :
    lines.filter kind = [] := by
  refine List.filter_eq_nil_iff.2 fun line hline hkind => ?_
  exact Bool.noConfusion ((frame line hline).symm.trans (hk line hkind))

theorem filter_hitLines : (hitLines n h).filter kind = [titleLine n h].filter kind := by
  rw [show hitLines n h = [titleLine n h] ++ (hitLines n h).tail from rfl, List.filter_append,
    filter_of_isFrame hk fun _ => isFrame_of_mem_tail_hitLines, List.append_nil]

/-- The lines of a page that are not framing tell the part that is shown, or are titles. -/
theorem filter_responseLines (hits : r.results ≠ []) :
    (responseLines r).filter kind = ((part? r).map Part.line).toList.filter kind ++
      (r.results.mapIdx fun i h => titleLine (firstOrdinal r + i) h).filter kind := by
  have above : (["", rule, "Found " ++ decimalText r.total ++ " document(s) with " ++
      decimalText r.totalMatches ++ " total match(es)"]).filter kind = [] := by
    refine filter_of_isFrame hk fun line hline => ?_
    simp only [String.append_assoc, List.mem_cons, List.not_mem_nil, or_false] at hline
    rcases hline with rfl | rfl | rfl
    · rfl
    · exact isFrame_rule
    · exact isFrame_append _ rfl rfl
  have between : [rule, ""].filter kind = [] := by
    refine filter_of_isFrame hk fun line hline => ?_
    simp only [List.mem_cons, List.not_mem_nil, or_false] at hline
    rcases hline with rfl | rfl
    · exact isFrame_rule
    · rfl
  have titles : ((numbered r).map fun entry => titleLine entry.1 entry.2) =
      r.results.mapIdx fun i h => titleLine (firstOrdinal r + i) h := by
    refine List.ext_getElem? fun i => ?_
    simp only [numbered, List.getElem?_map, List.getElem?_mapIdx, Option.map_map]
    rfl
  have below : ((numbered r).flatMap fun entry => hitLines entry.1 entry.2).filter kind =
      (r.results.mapIdx fun i h => titleLine (firstOrdinal r + i) h).filter kind := by
    simp only [List.filter_flatMap, filter_hitLines hk]
    rw [← List.filter_flatMap, ← List.map_eq_flatMap, titles]
  simp only [responseLines, List.isEmpty_iff, if_neg hits, List.filter_append, above, between,
    filter_of_isFrame hk fun _ => isFrame_of_mem_warnings, List.nil_append, List.append_nil]
  exact congrArg _ below

theorem filter_responseLines_of_empty (none : r.results = []) :
    (responseLines r).filter kind = [emptyLine r].filter kind := by
  have blank : [""].filter kind = [] := filter_of_isFrame hk fun line hline => List.mem_singleton.1 hline ▸ rfl
  rw [responseLines, List.isEmpty_iff.2 none, if_pos rfl, List.filter_append,
    filter_of_isFrame hk fun _ => isFrame_of_mem_warnings, List.nil_append,
    show ["", emptyLine r] = [""] ++ [emptyLine r] from rfl, List.filter_append, blank, List.nil_append]

end

/-! ## What a page prints -/

theorem startsWith_of_mem_part {line : String} (hline : line ∈ ((part? r).map Part.line).toList) :
    line.startsWith "Showing " = true := by
  obtain ⟨p, -, rfl⟩ := Option.map_eq_some_iff.1 (Option.mem_toList.1 hline)
  exact startsWith_line p

theorem titles_responseLines (hits : r.results ≠ []) :
    titles (responseLines r) = r.results.mapIdx fun i h => titleLine (firstOrdinal r + i) h := by
  have part : ((part? r).map Part.line).toList.filter isTitle = [] := by
    refine List.filter_eq_nil_iff.2 fun line hline title => ?_
    exact Bool.noConfusion (title.symm.trans (isTitle_of_startsWith (startsWith_of_mem_part hline) rfl rfl))
  have all : (r.results.mapIdx fun i h => titleLine (firstOrdinal r + i) h).filter isTitle =
      r.results.mapIdx fun i h => titleLine (firstOrdinal r + i) h := by
    refine List.filter_eq_self.2 fun line hline => ?_
    obtain ⟨i, hi, rfl⟩ := List.mem_mapIdx.1 hline
    exact isTitle_titleLine _ _
  rw [titles, filter_responseLines isFrame_of_isTitle hits, part, all, List.nil_append]

theorem starting_showing_responseLines (hits : r.results ≠ []) :
    starting "Showing " (responseLines r) = ((part? r).map Part.line).toList := by
  have titles :
      (r.results.mapIdx fun i h => titleLine (firstOrdinal r + i) h).filter (·.startsWith "Showing ") = [] := by
    refine List.filter_eq_nil_iff.2 fun line hline start => ?_
    obtain ⟨i, hi, rfl⟩ := List.mem_mapIdx.1 hline
    exact Bool.noConfusion ((isTitle_titleLine _ _).symm.trans (isTitle_of_startsWith start rfl rfl))
  have all : ((part? r).map Part.line).toList.filter (·.startsWith "Showing ") = ((part? r).map Part.line).toList :=
    List.filter_eq_self.2 fun _ => startsWith_of_mem_part
  rw [starting, filter_responseLines (isFrame_of_startsWith rfl rfl) hits, titles, all, List.append_nil]

theorem titles_responseLines_of_empty (none : r.results = []) : titles (responseLines r) = [] := by
  rw [titles, filter_responseLines_of_empty isFrame_of_isTitle none, List.filter_eq_nil_iff]
  intro line hline title
  rw [List.mem_singleton.1 hline, emptyLine] at title
  split at title
  · exact Bool.noConfusion title
  · simp only [String.append_assoc] at title
    exact Bool.noConfusion (title.symm.trans (isTitle_of_startsWith (startsWith_append _ _) rfl rfl))

theorem starting_page_responseLines (none : r.results = []) :
    starting "Page " (responseLines r) =
      if 0 < r.total then
        ["Page " ++ decimalText r.page ++ " is past the end (" ++ decimalText r.total ++ " result(s))."]
      else [] := by
  rw [starting, filter_responseLines_of_empty (isFrame_of_startsWith rfl rfl) none, emptyLine]
  by_cases found : r.total = 0
  · rw [if_pos found, if_neg (by omega), List.filter_eq_nil_iff]
    intro line hline start
    rw [List.mem_singleton.1 hline] at start
    exact absurd (head?_of_startsWith start rfl) (by decide)
  · rw [if_neg found, if_pos (by omega)]
    refine List.filter_eq_self.2 fun line hline => ?_
    rw [List.mem_singleton.1 hline]
    simp only [String.append_assoc]
    exact startsWith_append _ _

end Output

/-! ## Pages of a result -/

/-- Numbering a slice of a list from the place where it starts is cutting the slice from the numbered list. -/
theorem mapIdx_slice {α β : Type} (l : List α) (f : Nat → α → β) (start n : Nat) :
    (((l.drop start).take n).mapIdx fun i x => f (start + i) x) = ((l.mapIdx f).drop start).take n := by
  refine List.ext_getElem? fun i => ?_
  simp only [List.getElem?_mapIdx, List.getElem?_take, List.getElem?_drop]
  split <;> rfl

theorem ceilDiv_eq_pageCount (total n : Nat) : total ⌈/⌉ n = pageCount total n := rfl

/-- Is a response a page of a list? -/
structure Response.IsPageOf (r : Response) (full : List Hit) : Prop where
  results : r.results = Backend.pageOf full r.page r.perPage
  total : r.total = full.length
  page : 1 ≤ r.page
  perPage : 0 < r.perPage

/-- Is a page with hits printed as part of a list of so many hits, from one number to another? -/
structure Output.PrintsPart (r : Response) (total pages first last : Nat) : Prop where
  /-- The titles number the hits from the first number to the last. -/
  titles : titles (responseLines r) = r.results.mapIdx fun i h => titleLine (first + i) h
  count : last + 1 = first + r.results.length
  one_le : 1 ≤ first
  first_le : first ≤ last
  last_le : last ≤ total
  page_le : r.page ≤ pages
  /-- The part is told unless it is all. -/
  showing : starting "Showing " (responseLines r) =
    if r.results.length = total then []
    else ["Showing " ++ decimalText first ++ "-" ++ decimalText last ++ " (page " ++ decimalText r.page ++
      " of " ++ decimalText pages ++ ")"]

namespace Response.IsPageOf

variable {r : Response} {full : List Hit}

theorem length_results (cut : r.IsPageOf full) :
    r.results.length = min r.perPage (full.length - (r.page - 1) * r.perPage) := by
  rw [cut.results, Backend.pageOf, List.length_take, List.length_drop]

theorem results_ne_nil_iff (cut : r.IsPageOf full) : r.results ≠ [] ↔ r.page ≤ full.length ⌈/⌉ r.perPage := by
  have room := cut.perPage
  rw [← List.length_pos_iff, cut.length_results, show r.page = r.page - 1 + 1 from (Nat.sub_add_cancel cut.page).symm,
    ← Nat.lt_iff_add_one_le, ceilDiv_eq_pageCount, lt_pageCount room, Nat.add_sub_cancel]
  omega

/-- The titles of a page are cut from the titles of all hits, as its hits are from all hits. -/
theorem titles (cut : r.IsPageOf full) :
    Output.titles (Output.responseLines r) =
      ((full.mapIdx fun i h => Output.titleLine (i + 1) h).drop ((r.page - 1) * r.perPage)).take r.perPage := by
  rw [← mapIdx_slice, ← Backend.pageOf, ← cut.results]
  by_cases hits : r.results = []
  · rw [Output.titles_responseLines_of_empty hits, hits, List.mapIdx_nil]
  · rw [Output.titles_responseLines hits]
    simp only [Output.firstOrdinal, Nat.add_right_comm]

theorem part?_eq (cut : r.IsPageOf full) :
    Output.part? r =
      if r.results.length = full.length then none
      else some ⟨Output.firstOrdinal r, Output.firstOrdinal r + r.results.length - 1, r.page,
        full.length ⌈/⌉ r.perPage⟩ := by
  have length := cut.length_results
  rw [Output.part?, cut.total]
  by_cases all : r.results.length = full.length
  · rw [if_pos all, if_neg (by omega)]
  · rw [if_neg all, if_pos (by omega)]
    rfl

theorem printsPart (cut : r.IsPageOf full) (hits : r.results ≠ []) :
    Output.PrintsPart r full.length (full.length ⌈/⌉ r.perPage) (Output.firstOrdinal r)
      (Output.firstOrdinal r + r.results.length - 1) := by
  have some := List.length_pos_iff.2 hits
  have length := cut.length_results
  have first : Output.firstOrdinal r = (r.page - 1) * r.perPage + 1 := rfl
  refine ⟨Output.titles_responseLines hits, by omega, by omega, by omega, by omega, cut.results_ne_nil_iff.1 hits, ?_⟩
  rw [Output.starting_showing_responseLines hits, cut.part?_eq]
  split <;> rfl

end Response.IsPageOf

/-- Do the printed pages of a request number a list? -/
structure Backend.PagesNumber (b : Backend) (p : Plan) (r : Request) (n : Nat) (full : List Hit) : Prop where
  /-- All pages tell the same total. -/
  total : ∀ page, (b.searchPlan p { r with page }).total = full.length
  /-- The pages with hits are the first ones. -/
  hits : ∀ page, 1 ≤ page → ((b.searchPlan p { r with page }).results ≠ [] ↔ page ≤ full.length ⌈/⌉ n)
  /-- The titles of these pages, one page after the other, number the list from one on. -/
  titles : ((List.range (full.length ⌈/⌉ n)).flatMap fun i =>
      Output.titles (Output.responseLines (b.searchPlan p { r with page := i + 1 }))) =
    full.mapIdx fun i h => Output.titleLine (i + 1) h
  /-- Each of them is printed as a part of the list. -/
  part : ∀ page, (b.searchPlan p { r with page }).results ≠ [] →
    ∃ first last, Output.PrintsPart (b.searchPlan p { r with page }) full.length (full.length ⌈/⌉ n) first last
  /-- A page without hits is past the end if there are hits. -/
  past : ∀ page, (b.searchPlan p { r with page }).results = [] →
    Output.starting "Page " (Output.responseLines (b.searchPlan p { r with page })) =
      if 0 < full.length then
        ["Page " ++ decimalText (max page 1) ++ " is past the end (" ++ decimalText full.length ++ " result(s))."]
      else []

namespace Backend

variable (b : Backend) (p : Plan) (r : Request)

theorem isPageOf_searchPlan : (b.searchPlan p r).IsPageOf (b.fullList p r) where
  results := b.results_searchPlan p r
  total := by rw [fullList, List.length_map]; rfl
  page := Nat.le_max_right _ _
  perPage := Nat.le_max_right _ _

/-- A first page with room for all hits is the full list. -/
theorem results_whole :
    (b.searchPlan p { r with page := 1, perPage := (b.searchPlan p r).total }).results = b.fullList p r := by
  have total := (b.isPageOf_searchPlan p r).total
  have whole := (b.isPageOf_searchPlan p { r with page := 1, perPage := (b.searchPlan p r).total }).results
  rw [whole]
  show ((b.fullList p r).drop ((max 1 1 - 1) * _)).take (max (b.searchPlan p r).total 1) = b.fullList p r
  rw [Nat.max_self, Nat.sub_self, Nat.zero_mul, List.drop_zero, List.take_of_length_le]
  omega

/-- For any backend, plan and request, the printed pages number the full list. -/
theorem searchPlan_pagesNumber :
    b.PagesNumber p r (max r.perPage 1)
      (b.searchPlan p { r with page := 1, perPage := (b.searchPlan p r).total }).results := by
  rw [results_whole]
  have cut (page : Nat) : (b.searchPlan p { r with page }).IsPageOf (b.fullList p r) :=
    b.isPageOf_searchPlan p { r with page }
  refine ⟨fun page => (cut page).total, fun page first => ?hits, ?titles, fun page hits => ?part,
    fun page none => ?past⟩
  case hits =>
    have number : (b.searchPlan p { r with page }).page = page := Nat.max_eq_left first
    have := (cut page).results_ne_nil_iff
    rwa [number] at this
  case titles =>
    have slices (i : Nat) := (cut (i + 1)).titles
    have number (i : Nat) : (b.searchPlan p { r with page := i + 1 }).page - 1 = i := by
      show max (i + 1) 1 - 1 = i
      omega
    simp only [number] at slices
    simp only [slices]
    have tiled := flatMap_pages_self ((b.fullList p r).mapIdx fun i h => Output.titleLine (i + 1) h) (cut 1).perPage
    rwa [List.length_mapIdx] at tiled
  case part => exact ⟨_, _, (cut page).printsPart hits⟩
  case past =>
    have line := Output.starting_page_responseLines none
    rwa [(cut page).total] at line

end Backend

end Concordance
