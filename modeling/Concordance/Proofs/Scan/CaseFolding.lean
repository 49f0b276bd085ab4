/-
Terms in another case. A pattern that does not heed case looks at its letters and at those of a text only in their
folded form, so terms whose letters fold alike have the same spans in every text; and a search knows a term by its
spans alone, but for the label that a pair bears.
-/
import Concordance.Proofs.Scan.PairingLaws

namespace Concordance

open Text Scan

/-! ## Terms with the same letters -/

/-- Do two terms have the same letters one by one, each in either case? -/
def Term.SameLetters (t u : Term) : Prop :=
  List.Forall₂ (fun c e => foldCase c = foldCase e) t.text.toList u.text.toList

theorem Term.SameLetters.map_foldCase {t u : Term} (h : t.SameLetters u) :
    t.text.toList.map foldCase = u.text.toList.map foldCase := by
  rw [← List.forall₂_eq_eq_eq, List.forall₂_map_left_iff, List.forall₂_map_right_iff]
  exact h

namespace Scan.Pattern

/-- Do two patterns look for the same letters, in the form in which they are compared, and in the same way? -/
structure Alike (p q : Pattern) : Prop where
  caseSensitive : p.caseSensitive = q.caseSensitive
  wholeWord : p.wholeWord = q.wholeWord
  letters : p.letters.map p.form = q.letters.map q.form

namespace Alike

variable {p q : Pattern}

theorem form (h : p.Alike q) : p.form = q.form := by
  funext c
  rw [Pattern.form, Pattern.form, h.caseSensitive]

theorem length (h : p.Alike q) : p.letters.length = q.letters.length := by
  have lengths := congrArg List.length h.letters
  rwa [List.length_map, List.length_map] at lengths

theorem startsWith (h : p.Alike q) (s : List Char) : p.startsWith p.letters s = q.startsWith q.letters s := by
  rw [Bool.eq_iff_iff, startsWith_iff, startsWith_iff, h.letters, h.form]

theorem occursAt (h : p.Alike q) (before : Option Char) (s : List Char) :
    p.occursAt before s = q.occursAt before s := by
  rw [Pattern.occursAt, Pattern.occursAt, h.startsWith, h.wholeWord, h.length]

theorem spansFrom (h : p.Alike q) : ∀ (s : List Char) (before : Option Char) (bytes skip : Nat),
    p.spansFrom before bytes skip s = q.spansFrom before bytes skip s
  | [], before, bytes, skip => by rw [Pattern.spansFrom, Pattern.spansFrom, h.occursAt]
  | c :: rest, before, bytes, skip => by
    rw [Pattern.spansFrom, Pattern.spansFrom, h.occursAt, h.length]
    simp only [h.spansFrom rest]

theorem spans (h : p.Alike q) (text : List Char) : p.spans text = q.spans text := h.spansFrom text none 0 0

end Alike

end Scan.Pattern

/-! ## Searches -/

/-- The hit whose matches all bear a label. -/
def Hit.labelled (label : String) (h : Hit) : Hit := { h with contexts := h.contexts.map (·.labelled label) }

namespace Scanner

variable {s : Scanner}

/-- Without regard to case, terms with the same letters have patterns that are alike. -/
theorem alike_pattern (lax : s.options.caseSensitive = false) {t u : Term} (same : t.SameLetters u)
    (wholeWord : Bool) : (s.pattern t wholeWord).Alike (s.pattern u wholeWord) := by
  have form (v : Term) : (s.pattern v wholeWord).form = foldCase := by
    funext c
    rw [Pattern.form, pattern, lax, if_neg Bool.false_ne_true]
  refine ⟨rfl, rfl, ?_⟩
  rw [form, form]
  exact same.map_foldCase

theorem find?_congr {p q : Pattern} (h : p.Alike q) : s.find? p = s.find? q := by
  funext d
  rw [find?, find?, h.spans]

theorem search_congr (lax : s.options.caseSensitive = false) {t u : Term} (same : t.SameLetters u) :
    s.search t = s.search u := by
  rw [search, search, find?_congr (alike_pattern lax same _)]

/-- What is found for several terms hangs on what is found for each. -/
theorem searchMultiple_congr {ts us : List Term} (h : List.Forall₂ (fun t u => s.search t = s.search u) ts us)
    (combinator : Combinator) : s.searchMultiple ts combinator = s.searchMultiple us combinator := by
  have searches : ts.map s.search = us.map s.search := by
    rwa [← List.forall₂_eq_eq_eq, List.forall₂_map_left_iff, List.forall₂_map_right_iff]
  by_cases either : combinator = .or
  · rw [either, searchMultiple_or, searchMultiple_or, List.flatMap_def, List.flatMap_def, searches]
  · cases h with
    | nil => rfl
    | cons first _ =>
      rw [s.searchMultiple_and either, s.searchMultiple_and either, first, (List.cons.inj searches).2]

/-- A hit knows the label of its matches, and nothing else hangs on it. -/
theorem hit?_labelled {α : Type} (d : Document) (span : α → Span) (found : List α) (label label' : String) :
    s.hit? d (found.map fun x => (span x, label')) =
      (s.hit? d (found.map fun x => (span x, label))).map (Hit.labelled label') := by
  unfold hit?
  rw [contexts_eq_map, contexts_eq_map]
  cases found with
  | nil => rfl
  | cons x rest =>
    simp only [List.map_cons, List.isEmpty_cons, Bool.false_eq_true, if_false, Option.map_some, Hit.labelled,
      Document.hit, Context.labelled, List.map_map, List.length_map, List.length_cons, Function.comp_def]

theorem findPair?_congr {p p' q q' : Pattern} (hp : p.Alike p') (hq : q.Alike q') (n : Nat) (label label' : String)
    (d : Document) : s.findPair? p' q' n label' d = (s.findPair? p q n label d).map (Hit.labelled label') := by
  rw [findPair?, findPair?, ← hp.spans, ← hq.spans]
  exact hit?_labelled d (fun x : Span × Span => hull x.1 x.2) _ label label'

/--
If case does not matter, terms with the same letters find the same: each alone, several in every way of combining
them, and two close together, where the matches bear the terms as they were given.
-/
theorem search_sameLetters {s : Scanner} (lax : s.options.caseSensitive = false) :
    (∀ t u : Term, t.SameLetters u → s.search t = s.search u) ∧
      (∀ ts us : List Term, List.Forall₂ Term.SameLetters ts us →
        ∀ combinator, s.searchMultiple ts combinator = s.searchMultiple us combinator) ∧
      ∀ a a' b b' : Term, a.SameLetters a' → b.SameLetters b' → ∀ n,
        s.searchProximity a' b' n = (s.searchProximity a b n).map (·.labelled (a'.text ++ "..." ++ b'.text)) := by
  refine ⟨fun t u => search_congr lax, fun ts us same combinator => ?_, fun a a' b b' first second n => ?_⟩
  · exact searchMultiple_congr (same.imp fun _ _ => search_congr lax) combinator
  · rw [searchProximity, searchProximity, List.map_filterMap]
    refine List.filterMap_congr fun d _ => ?_
    exact findPair?_congr (alike_pattern lax first false) (alike_pattern lax second false) ..

/-- It holds a temperature in each of the three signs that are the letter K. -/
def kelvins : Document := ⟨1, 1, "a.pdf", "DataSet 1/a.pdf", 1, "300 K, 300 k or 300 \u212a", some [0]⟩

/-- Whichever of its three signs the letter is given in, all three are found, and so are the six pairs of them. -/
theorem search_kelvins :
    let s : Scanner := ⟨[kelvins], ⟨false, true, 3⟩⟩
    let small : Term := ⟨"k", false⟩
    let sign : Term := ⟨"\u212a", true⟩
    let counts := fun hits : List Hit => hits.map (·.matchCount)
    s.options.caseSensitive = false ∧ small.SameLetters sign ∧
      counts (s.search small) = [3] ∧ s.search small = s.search sign ∧
      counts (s.searchMultiple [small, small] .and) = [3] ∧
      s.searchMultiple [small, small] .and = s.searchMultiple [sign, small] .and ∧
      counts (s.searchProximity small small 5) = [6] ∧
      s.searchProximity sign sign 5 = (s.searchProximity small small 5).map (·.labelled "\u212a...\u212a") := by
  intro s small sign counts
  have same : small.SameLetters sign := by
    unfold Term.SameLetters
    decide +kernel
  have self : small.SameLetters small := List.forall₂_same.2 fun _ _ => rfl
  obtain ⟨alone, several, paired⟩ := search_sameLetters (s := s) rfl
  exact ⟨rfl, same, by decide +kernel, alone small sign same, by decide +kernel,
    several _ _ (.cons same (.cons self .nil)) .and, by decide +kernel, paired small sign small sign same same 5⟩

end Scanner

end Concordance
