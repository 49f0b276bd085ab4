/-
Stricter options. What occurs with regard to case or as a whole word occurs without; so a stricter search lists no
more matches in any document, although it may list others, and finds no document that a laxer one does not.
-/
import Concordance.Proofs.Scan.Listing
import Mathlib.Data.List.Forall2

namespace Concordance

open Text Scan

/-! ## Stricter options -/

namespace Scan.Options

/-- Do options heed case and whole words whenever others do? -/
structure Stricter (o₁ o₂ : Options) : Prop where
  caseSensitive : o₂.caseSensitive = true → o₁.caseSensitive = true
  wholeWord : o₂.wholeWord = true → o₁.wholeWord = true

/-- The pattern of a term. -/
def pattern (o : Options) (t : Term) : Pattern := ⟨t.text.toList, o.caseSensitive, o.wholeWord⟩

variable {o₁ o₂ : Options} {t : Term} {text : List Char}

/-- Letters that are the same stay so when case is given up, and boundaries that are not asked for do no harm. -/
theorem Stricter.occursIn (h : o₁.Stricter o₂) {place : Nat} (occurs : (o₁.pattern t).OccursIn text place) :
    (o₂.pattern t).OccursIn text place := by
  refine ⟨occurs.inside, ?_, fun whole => occurs.bounded (h.wholeWord whole)⟩
  have letters := occurs.letters
  cases case₁ : o₁.caseSensitive with
  | true =>
    have form : (o₁.pattern t).form = id := by
      funext c
      rw [Pattern.form, pattern, case₁, if_pos rfl, id]
    rw [form, List.map_id, List.map_id] at letters
    exact congrArg (List.map (o₂.pattern t).form) letters
  | false =>
    have case₂ : o₂.caseSensitive = o₁.caseSensitive := by
      rw [case₁, Bool.eq_false_iff]
      exact fun heeds => Bool.false_ne_true (case₁.symm.trans (h.caseSensitive heeds))
    have form : (o₂.pattern t).form = (o₁.pattern t).form := by
      funext c
      rw [Pattern.form, Pattern.form, pattern, pattern, case₂]
    rw [form]
    exact letters

end Scan.Options

/-! ## Stricter searches -/

/-- Of the members of a list one search finds something for some of those for which another one does. -/
theorem sublistForall₂_filterMap {α β γ : Type} {R : β → γ → Prop} {find : α → Option β} {findMore : α → Option γ} :
    ∀ {list : List α}, (∀ a ∈ list, ∀ b, find a = some b → ∃ c, findMore a = some c ∧ R b c) →
      List.SublistForall₂ R (list.filterMap find) (list.filterMap findMore)
  | [], _ => .nil
  | a :: rest, h => by
    have ih := sublistForall₂_filterMap fun a ha => h a (List.mem_cons_of_mem _ ha)
    cases ha : find a with
    | some b =>
      obtain ⟨c, hc, related⟩ := h a List.mem_cons_self b ha
      rw [List.filterMap_cons_some ha, List.filterMap_cons_some hc]
      exact .cons related ih
    | none =>
      rw [List.filterMap_cons_none ha]
      cases hc : findMore a with
      | none =>
        rw [List.filterMap_cons_none hc]
        exact ih
      | some c =>
        rw [List.filterMap_cons_some hc]
        exact .cons_right ih

namespace Scanner

/-- How often a search with the options finds a term in a document, which is never if there is no hit. -/
def matchesIn (o : Options) (t : Term) (d : Document) : Nat := totalOf (·.matchCount) ((Scanner.mk [d] o).search t)

theorem exists_findsFrom_matchesIn (o : Options) (t : Term) (d : Document) :
    ∃ places, (o.pattern t).FindsFrom d.text.toList 0 places ∧ matchesIn o t d = places.length := by
  obtain ⟨places, finds, found⟩ := exists_findsFrom_find? ⟨[d], o⟩ (o.pattern t) d
  have searched : (Scanner.mk [d] o).search t = [d].filterMap ((Scanner.mk [d] o).find? (o.pattern t)) := rfl
  refine ⟨places, finds, ?_⟩
  rw [matchesIn, searched]
  split at found
  · rename_i none
    rw [List.filterMap_cons_none found, none]
    rfl
  · rw [List.filterMap_cons_some found]
    rfl

/--
With stricter options a search finds a term no more often in any document. So for every list of documents its hits
are for some of the documents for which there are hits with the laxer options, in the same order, and count no more.
-/
theorem search_stricter {o₁ o₂ : Options} (h : o₁.Stricter o₂) (t : Term) :
    (∀ d, matchesIn o₁ t d ≤ matchesIn o₂ t d) ∧
      ∀ documents : List Document,
        List.SublistForall₂
          (fun h₁ h₂ => ∃ d ∈ documents, h₁ = d.hit h₁.matchCount h₁.contexts ∧ h₂ = d.hit h₂.matchCount h₂.contexts ∧
            h₁.matchCount ≤ h₂.matchCount)
          ((Scanner.mk documents o₁).search t) ((Scanner.mk documents o₂).search t) := by
  refine ⟨fun d => ?_, fun documents => sublistForall₂_filterMap fun d hd h₁ found => ?_⟩
  · obtain ⟨few, finds₁, count₁⟩ := exists_findsFrom_matchesIn o₁ t d
    obtain ⟨many, finds₂, count₂⟩ := exists_findsFrom_matchesIn o₂ t d
    rw [count₁, count₂]
    exact finds₂.length_le_of_imp finds₁ rfl fun _ => h.occursIn
  · have occurs₁ : ∃ place, (o₁.pattern t).OccursIn d.text.toList place :=
      find?_ne_none_iff.1 (Option.ne_none_iff_exists'.2 ⟨h₁, found⟩)
    have occurs₂ := occurs₁.imp fun _ => h.occursIn
    obtain ⟨h₂, found₂⟩ := Option.ne_none_iff_exists'.1 (find?_ne_none_iff (s := ⟨documents, o₂⟩).2 occurs₂)
    obtain ⟨few, finds₁, hit₁⟩ := exists_findsFrom_of_find? found
    obtain ⟨many, finds₂, hit₂⟩ := exists_findsFrom_of_find? found₂
    refine ⟨h₂, found₂, d, hd, ?_, ?_, ?_⟩
    · rw [hit₁]
      rfl
    · rw [hit₂]
      rfl
    · rw [hit₁, hit₂]
      exact finds₂.length_le_of_imp finds₁ rfl fun _ => h.occursIn

/-- Its phrases of two logs overlap, and the second is the only one in lower case. -/
def shoutedLogs : Document := ⟨1, 1, "a.pdf", "DataSet 1/a.pdf", 1, "Log log log, LOG LOG", none⟩

/-- With regard to case a scan lists the phrase that the laxer scan passes over, which lists two others. -/
theorem search_stricter_log_log :
    let strict : Options := ⟨true, false, 300⟩
    let lax : Options := ⟨false, false, 300⟩
    let t : Term := ⟨"log log", false⟩
    let places := fun o => ((Scanner.mk [shoutedLogs] o).search t).map fun h => h.contexts.map (·.position)
    strict.Stricter lax ∧ places strict = [[4]] ∧ places lax = [[0, 13]] ∧
      matchesIn strict t shoutedLogs ≤ matchesIn lax t shoutedLogs := by
  intro strict lax t places
  have stricter : strict.Stricter lax := ⟨nofun, nofun⟩
  exact ⟨stricter, by decide +kernel, by decide +kernel, (search_stricter stricter t).1 shoutedLogs⟩

end Scanner

end Concordance
