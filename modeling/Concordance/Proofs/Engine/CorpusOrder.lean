/-
What the order of the documents decides. Evaluation joins hits by filename and moves no hit past another of its
filename, so as long as documents of one filename keep their order, it finds the same hits of each filename in
the same order. A request sorted by filename, or by dataset and filename, needs no more: it is answered alike,
with the same hits, contexts, totals and pages.
-/
import Concordance.Proofs.Engine.Dataset
import Concordance.Proofs.Engine.Paging

namespace Concordance

namespace Scanner

/-- Do two scanners scan alike, with the same documents of each filename in the same order? -/
structure AlikeByFile (s s' : Scanner) : Prop where
  options : s.options = s'.options
  documents : ∀ f, s.documents.filter (·.filename = f) = s'.documents.filter (·.filename = f)

variable {s s' : Scanner}

/-- The documents of one filename decide which hits there are of it, for every plan. -/
theorem AlikeByFile.evaluate (h : s.AlikeByFile s') (p : Plan) (f : String) :
    ((Backend.memory s).evaluate p).filter (·.filename = f) =
      ((Backend.memory s').evaluate p).filter (·.filename = f) := by
  have alone : s.restrictFiles (· = f) = s'.restrictFiles (· = f) := by
    unfold restrictFiles restrict
    rw [h.documents f, h.options]
  calc ((Backend.memory s).evaluate p).filter (·.filename = f)
      = (Backend.memory (s.restrictFiles (· = f))).evaluate p := (s.evaluate_restrictFiles (· = f) p).symm
    _ = (Backend.memory (s'.restrictFiles (· = f))).evaluate p := by rw [alone]
    _ = _ := s'.evaluate_restrictFiles (· = f) p

end Scanner

/-- Hits that tie by name or by dataset and name have one filename. -/
theorem SortOrder.filename_of_ties {order : SortOrder} (ho : order ≠ .relevance) {a b : Hit}
    (h : order.Ties a b = true) : b.filename = a.filename := by
  cases order with
  | relevance => exact absurd rfl ho
  | filename => exact (of_decide_eq_true h).symm
  | dataset =>
    simp only [SortOrder.Ties, Bool.and_eq_true, decide_eq_true_eq] at h
    exact h.2.symm

namespace Scanner

variable {s s' : Scanner}

/-- Scanners alike by file answer a request sorted by name, or by dataset and name, with the same list. -/
theorem AlikeByFile.matching (h : s.AlikeByFile s') (p : Plan) {r : Request} (hr : r.sort ≠ .relevance) :
    (Backend.memory s).matching p r = (Backend.memory s').matching p r := by
  unfold Backend.matching
  refine SortOrder.sort_eq_of_ties fun x => ?_
  -- hits that tie have one filename, of which both evaluations find the same
  have named (hits : List Hit) : (hits.filter r.admits).filter (r.sort.Ties x) =
      ((hits.filter (·.filename = x.filename)).filter r.admits).filter (r.sort.Ties x) := by
    simp only [List.filter_filter]
    refine List.filter_congr fun g _ => ?_
    cases ht : r.sort.Ties x g with
    | false => rfl
    | true => simp [SortOrder.filename_of_ties hr ht]
  rw [named, h.evaluate p, ← named]

end Scanner

/-- Documents of distinct filenames are alike by file in any order. -/
theorem filter_filename_eq_of_perm {documents documents' : List Document} (hp : documents.Perm documents')
    (hn : (documents.map (·.filename)).Nodup) (f : String) :
    documents.filter (·.filename = f) = documents'.filter (·.filename = f) := by
  -- there is at most one document of the filename
  have single {l : List Document} (hl : (l.map (·.filename)).Nodup) :
      (l.filter (·.filename = f)).Pairwise fun _ _ => False := by
    rw [List.Nodup, List.pairwise_map] at hl
    refine (hl.filter (·.filename = f)).imp_of_mem fun {d e} hd he hne => hne ?_
    rw [of_decide_eq_true (List.mem_filter.1 hd).2, of_decide_eq_true (List.mem_filter.1 he).2]
  have hn' : (documents'.map (·.filename)).Nodup := (hp.map _).nodup_iff.1 hn
  exact (hp.filter _).eq_of_pairwise (fun _ _ _ _ h _ => h.elim) (single hn) (single hn')

/--
Documents of distinct filenames may come in any order: a request sorted by filename, or by dataset and filename,
gets the same response, whatever the options, the plan and the other wishes.
-/
theorem searchPlan_perm {documents documents' : List Document} (hp : documents.Perm documents')
    (hn : (documents.map (·.filename)).Nodup) (options : Scan.Options) (p : Plan) {r : Request}
    (hr : r.sort = .filename ∨ r.sort = .dataset) :
    (Backend.memory ⟨documents, options⟩).searchPlan p r = (Backend.memory ⟨documents', options⟩).searchPlan p r := by
  have alike : Scanner.AlikeByFile ⟨documents, options⟩ ⟨documents', options⟩ :=
    ⟨rfl, filter_filename_eq_of_perm hp hn⟩
  have named : r.sort ≠ .relevance := by
    rcases hr with hr | hr <;> rw [hr] <;> decide
  exact searchPlan_congr (alike.matching p named)

/-- Two logs of two datasets, the later dataset first. -/
def harborLogs : List Document :=
  [⟨1, 2, "a.pdf", "DataSet 2/a.pdf", 2, "island log\x0clog", some [0, 11]⟩,
    ⟨2, 1, "b.pdf", "DataSet 1/b.pdf", 1, "log of an island, an island log", some [0]⟩]

/-- The plan of two words that both have to be there. -/
def islandAndLog : Plan := ⟨[⟨"log", false⟩, ⟨"island", false⟩], .and, [], [], []⟩

/-- The request for one hit of the first dataset there is, with one context. -/
def firstOfDatasets : Request :=
  { Request.ofQuery "" with sort := .dataset, perPage := 1, maxContexts := 1 }

/-- The logs are found in the order in which they come, but the response is the same in either order. -/
theorem searchPlan_harborLogs :
    let options : Scan.Options := ⟨false, true, 4⟩
    harborLogs.Perm harborLogs.reverse ∧ (harborLogs.map (·.filename)).Nodup ∧
      filesOf ((Backend.memory ⟨harborLogs, options⟩).evaluate islandAndLog) = ["a.pdf", "b.pdf"] ∧
      filesOf ((Backend.memory ⟨harborLogs.reverse, options⟩).evaluate islandAndLog) = ["b.pdf", "a.pdf"] ∧
      (Backend.memory ⟨harborLogs, options⟩).searchPlan islandAndLog firstOfDatasets =
        (Backend.memory ⟨harborLogs.reverse, options⟩).searchPlan islandAndLog firstOfDatasets := by
  have order : harborLogs.Perm harborLogs.reverse := (List.reverse_perm _).symm
  have names : (harborLogs.map (·.filename)).Nodup := by decide
  exact ⟨order, names, by decide +kernel, by decide +kernel, searchPlan_perm order names _ _ (.inr rfl)⟩

end Concordance
