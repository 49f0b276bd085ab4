/-
A vocabulary in a scan: the spans of a word in joined words are where it stands among them. The scan passes
over a word whether it is the one looked for or not, and is then in front of a space or at the end.
-/
import Concordance.Proofs.Scan.Bytes
import Concordance.Proofs.Scan.Spans
import Concordance.Proofs.Vocabulary.Words

namespace Concordance

open Text Scan

/-! ## Passing over text -/

namespace Scan.Pattern

variable {p : Pattern}

/-- What stands before a text does not matter if matches may be parts of words. -/
theorem spansFrom_before (hw : p.wholeWord = false) :
    ∀ (s : List Char) (before before' : Option Char) (bytes skip : Nat),
      p.spansFrom before bytes skip s = p.spansFrom before' bytes skip s
  | [], before, before', bytes, skip => by
    simp [spansFrom, occursAt, hw]
  | c :: rest, before, before', bytes, skip => by
    simp [spansFrom, occursAt, hw]

/-- Characters that belong to an occurrence are passed over. -/
theorem spansFrom_skip (hw : p.wholeWord = false) {t : List Char} :
    ∀ {u : List Char} {bytes : Nat},
      p.spansFrom none bytes u.length (u ++ t) = p.spansFrom none (bytes + byteLength u) 0 t
  | [], bytes => rfl
  | c :: u, bytes => by
    have ih : p.spansFrom none (bytes + c.utf8Size) u.length (u ++ t) = _ := spansFrom_skip hw
    have later : decide ((c :: u).length = 0) = false := rfl
    rw [List.cons_append, spansFrom, later, Bool.false_and]
    simp only [Bool.false_eq_true, if_false, List.length_cons, Nat.add_sub_cancel]
    rw [spansFrom_before hw _ _ none, ih, byteLength_cons, Nat.add_assoc]

/-- Characters at which the pattern does not occur are passed over. -/
theorem spansFrom_pass (hw : p.wholeWord = false) {t : List Char} :
    ∀ {u : List Char} {bytes : Nat},
      (∀ a b, u = a ++ b → b ≠ [] → p.occursAt none (b ++ t) = false) →
      p.spansFrom none bytes 0 (u ++ t) = p.spansFrom none (bytes + byteLength u) 0 t
  | [], bytes, _ => rfl
  | c :: u, bytes, h => by
    have here := h [] (c :: u) rfl (List.cons_ne_nil _ _)
    have ih : p.spansFrom none (bytes + c.utf8Size) 0 (u ++ t) = _ :=
      spansFrom_pass hw fun a b hu hb => h (c :: a) b (by rw [hu]; rfl) hb
    rw [List.cons_append] at here ⊢
    rw [spansFrom, here, Bool.and_false]
    simp only [Bool.false_eq_true, if_false, Nat.zero_sub]
    rw [spansFrom_before hw _ _ none, ih, byteLength_cons, Nat.add_assoc]

end Scan.Pattern

/-! ## Spans of words -/

/-- Words with a space behind each. -/
def spaced (ws : List (List Char)) : List Char := ws.flatMap (· ++ [' '])

/-- The spans of a word among joined words that lie behind `bytes` bytes. -/
def wordSpans (w : List Char) (bytes : Nat) : List (List Char) → List Span
  | [] => []
  | v :: rest =>
    if v = w then ⟨bytes, bytes + byteLength w⟩ :: wordSpans w (bytes + byteLength (v ++ [' '])) rest
    else wordSpans w (bytes + byteLength (v ++ [' '])) rest

/-- A word that stands among words is the first of them or stands behind it. -/
theorem exists_cons_eq_append_cons_iff {α : Type} {v w : α} {rest : List α} {P : List α → Prop} :
    (∃ before after, v :: rest = before ++ w :: after ∧ P before) ↔
      (v = w ∧ P []) ∨ ∃ before after, rest = before ++ w :: after ∧ P (v :: before) := by
  constructor
  · rintro ⟨_ | ⟨u, before⟩, after, he, hP⟩
    · cases he
      exact .inl ⟨rfl, hP⟩
    · cases he
      exact .inr ⟨before, after, rfl, hP⟩
  · rintro (⟨rfl, hP⟩ | ⟨before, after, rfl, hP⟩)
    · exact ⟨[], rest, rfl, hP⟩
    · exact ⟨v :: before, after, rfl, hP⟩

theorem mem_wordSpans {w : List Char} {x : Span} :
    ∀ {vs : List (List Char)} {bytes : Nat}, x ∈ wordSpans w bytes vs ↔
      ∃ before after, vs = before ++ w :: after ∧
        x = ⟨bytes + byteLength (spaced before), bytes + byteLength (spaced before) + byteLength w⟩
  | [], bytes => by simp [wordSpans]
  | v :: rest, bytes => by
    have ih : x ∈ wordSpans w (bytes + byteLength (v ++ [' '])) rest ↔ _ := mem_wordSpans
    -- behind the first word all places lie further on by the word and its space
    have longer : ∀ before, bytes + byteLength (spaced (v :: before)) =
        bytes + byteLength (v ++ [' ']) + byteLength (spaced before) := by
      intro before
      rw [spaced, List.flatMap_cons, byteLength_append, Nat.add_assoc]
      rfl
    rw [exists_cons_eq_append_cons_iff, wordSpans]
    simp only [longer, ← ih]
    split
    · rename_i same
      rw [List.mem_cons]
      simp [same, spaced]
    · rename_i other
      simp [other]

namespace Vocabulary

variable {V : Vocabulary} {vs : List (List Char)}

/-- A scan for a literal of lower-case letters that may be part of a word and in any case. -/
def literal (w : List Char) : Pattern := ⟨w, false, false⟩

theorem map_form_literal {w s : List Char} (h : ∀ c ∈ s, c = ' ' ∨ c.isLower = true) :
    s.map (literal w).form = s := by
  have same : ∀ c ∈ s, (literal w).form c = c := by
    intro c hc
    rcases h c hc with rfl | hl
    · show foldCase ' ' = ' '
      decide +kernel
    · exact foldCase_of_isLower hl
  exact (List.map_congr_left same).trans (List.map_id s)

theorem occursAt_literal {w s : List Char} (hw : ∀ c ∈ w, c.isLower = true)
    (hs : ∀ c ∈ s, c = ' ' ∨ c.isLower = true) (before : Option Char) :
    (literal w).occursAt before s = true ↔ w <+: s := by
  have whole : (literal w).wholeWord = false := rfl
  rw [Pattern.occursAt_iff whole, map_form_literal hs]
  show w.map (literal w).form <+: s ↔ _
  rw [map_form_literal fun c hc => .inr (hw c hc)]

/-- Joined words have a joined phrase as a span exactly if they hold the phrase. -/
theorem All.spans_ne_nil_iff {ws : List (List Char)} (h : V.All ws) (h' : V.All vs) (hne : ws ≠ []) :
    (literal (joinWith [' '] ws)).spans (joinWith [' '] vs) ≠ [] ↔ ws <:+: vs := by
  have whole : (literal (joinWith [' '] ws)).wholeWord = false := rfl
  rw [Pattern.spans_ne_nil_iff whole, map_form_literal fun c => h'.mem_joinWith]
  show (joinWith [' '] ws).map (literal (joinWith [' '] ws)).form <:+: _ ↔ _
  rw [map_form_literal fun c => h.mem_joinWith, h.joinWith_isInfix_iff h' hne]

/-- A word of the vocabulary does not start inside another, whether a space follows or nothing. -/
theorem not_prefix_of_ne {w v : List Char} (hw : w ∈ V.words) (hv : v ∈ V.words) (hne : v ≠ w) {t : List Char}
    (ht : ∀ c ∈ t.head?, c = ' ') {a b : List Char} (hab : v = a ++ b) : ¬ w <+: b ++ t := by
  -- the word would lie in the other one or reach over the space
  rintro ⟨r, hr⟩
  have outside : ¬ w <+: b := by
    rintro ⟨z, rfl⟩
    exact hne (V.apart w hw v hv ⟨a, z, by rw [hab, List.append_assoc]⟩).symm
  rcases List.append_eq_append_iff.1 hr with ⟨z, rfl, -⟩ | ⟨_ | ⟨c, z⟩, rfl, rfl⟩
  · exact outside (List.prefix_append w z)
  · exact outside (by rw [List.append_nil])
  · have space : c = ' ' := ht c rfl
    have letter := V.lower _ hw c (by simp)
    subst space
    cases letter

/-! ## Spans of a word -/

section

variable {w v t : List Char}

theorem spansFrom_nil (hw : w ∈ V.words) (bytes : Nat) : (literal w).spansFrom none bytes 0 [] = [] := by
  have absent : ¬ (literal w).occursAt none [] = true := by
    rw [occursAt_literal (V.lower w hw) (List.forall_mem_nil _)]
    exact fun h => V.nonempty w hw (List.prefix_nil.1 h)
  rw [Pattern.spansFrom, Bool.eq_false_iff.2 absent, Bool.and_false]
  rfl

theorem spansFrom_space (hw : w ∈ V.words) (ht : ∀ c ∈ t, c = ' ' ∨ c.isLower = true) (bytes : Nat) :
    (literal w).spansFrom none bytes 0 (' ' :: t) = (literal w).spansFrom none (bytes + 1) 0 t := by
  have absent : ¬ (literal w).occursAt none (' ' :: t) = true := by
    rw [occursAt_literal (V.lower w hw) (List.forall_mem_cons.2 ⟨.inl rfl, ht⟩)]
    intro hp
    obtain ⟨c, w, rfl⟩ := List.exists_cons_of_ne_nil (V.nonempty w hw)
    have letter := V.lower _ hw c List.mem_cons_self
    rw [(List.cons_prefix_cons.1 hp).1] at letter
    cases letter
  have whole : (literal w).wholeWord = false := rfl
  rw [Pattern.spansFrom, Bool.eq_false_iff.2 absent, Bool.and_false]
  exact Pattern.spansFrom_before whole _ _ _ _ _

/-- A scan in front of the word has its span and goes on behind the word. -/
theorem spansFrom_same (hw : w ∈ V.words) (ht : ∀ c ∈ t, c = ' ' ∨ c.isLower = true) (bytes : Nat) :
    (literal w).spansFrom none bytes 0 (w ++ t) =
      ⟨bytes, bytes + byteLength w⟩ :: (literal w).spansFrom none (bytes + byteLength w) 0 t := by
  have present : (literal w).occursAt none (w ++ t) = true := by
    rw [occursAt_literal (V.lower w hw) (List.forall_mem_append.2 ⟨fun c hc => .inr (V.lower w hw c hc), ht⟩)]
    exact List.prefix_append w t
  have whole : (literal w).wholeWord = false := rfl
  have letters : (literal w).letters = w := rfl
  obtain ⟨c, u, hu⟩ := List.exists_cons_of_ne_nil (V.nonempty w hw)
  have front : w ++ t = c :: (u ++ t) := by rw [hu, List.cons_append]
  have length : w.length - 1 = u.length := by rw [hu]; rfl
  rw [front] at present ⊢
  rw [Pattern.spansFrom, present, letters, ← front, List.take_left, length, Pattern.spansFrom_before whole _ _ none,
    Pattern.spansFrom_skip whole, hu, byteLength_cons, Nat.add_assoc]
  rfl

/-- A scan in front of another word has no span in it. -/
theorem spansFrom_other (hw : w ∈ V.words) (hv : v ∈ V.words) (hne : v ≠ w)
    (ht : ∀ c ∈ t, c = ' ' ∨ c.isLower = true) (hs : ∀ c ∈ t.head?, c = ' ') (bytes : Nat) :
    (literal w).spansFrom none bytes 0 (v ++ t) = (literal w).spansFrom none (bytes + byteLength v) 0 t := by
  have whole : (literal w).wholeWord = false := rfl
  refine Pattern.spansFrom_pass whole fun a b hab _ => Bool.eq_false_iff.2 ?_
  have inside : ∀ c ∈ b, c = ' ' ∨ c.isLower = true :=
    fun c hc => .inr (V.lower v hv c (hab ▸ List.mem_append_right a hc))
  rw [ne_eq, occursAt_literal (V.lower w hw) (List.forall_mem_append.2 ⟨inside, ht⟩)]
  exact not_prefix_of_ne hw hv hne hs hab

/-- In joined words a word has a span wherever it stands, and no other. -/
theorem All.spansFrom_joinWith (hw : w ∈ V.words) (h : V.All vs) :
    ∀ bytes, (literal w).spansFrom none bytes 0 (joinWith [' '] vs) = wordSpans w bytes vs := by
  induction vs with
  | nil => exact spansFrom_nil hw
  | cons v rest ih =>
    intro bytes
    have hv := h v List.mem_cons_self
    have hrest : V.All rest := fun u hu => h u (List.mem_cons_of_mem _ hu)
    -- what follows the first word
    obtain ⟨t, joined, ht, hs, behind⟩ : ∃ t, joinWith [' '] (v :: rest) = v ++ t ∧
        (∀ c ∈ t, c = ' ' ∨ c.isLower = true) ∧ (∀ c ∈ t.head?, c = ' ') ∧
        ∀ n, (literal w).spansFrom none n 0 t = wordSpans w (n + 1) rest := by
      by_cases hne : rest = []
      · subst hne
        exact ⟨[], (List.append_nil v).symm, fun _ hc => (nomatch hc), fun _ hc => (nomatch hc), spansFrom_nil hw⟩
      · refine ⟨' ' :: joinWith [' '] rest, ?_, ?_, ?_, fun n => ?_⟩
        · rw [joinWith_cons _ _ hne, List.append_assoc, List.singleton_append]
        · exact List.forall_mem_cons.2 ⟨.inl rfl, fun c => hrest.mem_joinWith⟩
        · rintro c ⟨⟩
          rfl
        · rw [spansFrom_space hw fun c => hrest.mem_joinWith, ih hrest]
    have step : bytes + byteLength (v ++ [' ']) = bytes + byteLength v + 1 := by
      rw [byteLength_append]
      rfl
    rw [joined, wordSpans, step]
    split
    · rename_i same
      subst same
      rw [spansFrom_same hv ht, behind]
    · rename_i other
      rw [spansFrom_other hw hv other ht hs, behind]

end

end Vocabulary

end Concordance
