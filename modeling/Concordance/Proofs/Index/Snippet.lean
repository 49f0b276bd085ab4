/-
What is left of a snippet without its marks. While a snippet is drawn up, what is written says without its
marks what the copied text says without them: a mark that opens may stand anywhere, and one that closes stands
where it parts no signs of an opening mark, since a token ends or starts there. So a snippet shown is a slice
of the text from which the marks are taken that the text itself holds.
-/
import Concordance.Index.Snippet
import Concordance.Proofs.Index.Tokens
import Concordance.Proofs.Text.Find
import Mathlib.Data.List.TakeWhile

namespace Concordance.Index

open Text

/-! ## Slices -/

/-- The text from one place to another. -/
def slice (text : List Char) (start stop : Nat) : List Char := (text.drop start).take (stop - start)

variable {text pre : List Char} {start stop : Nat}

theorem slice_isInfix (text : List Char) (start stop : Nat) : slice text start stop <:+: text :=
  (List.take_prefix ..).isInfix.trans (List.drop_suffix ..).isInfix

theorem slice_self (text : List Char) (place : Nat) : slice text place place = [] := by
  rw [slice, Nat.sub_self, List.take_zero]

theorem slice_append {middle : Nat} (h : start ≤ middle) (h' : middle ≤ stop) :
    slice text start middle ++ slice text middle stop = slice text start stop := by
  have length : stop - start = (middle - start) + (stop - middle) := by omega
  rw [slice, slice, slice, length, List.take_add, List.drop_drop, Nat.add_sub_cancel' h]

theorem getElem?_slice {i : Nat} (h : start + i < stop) : (slice text start stop)[i]? = text[start + i]? := by
  rw [slice, List.getElem?_take_of_lt (by omega), List.getElem?_drop]

theorem head?_slice_ne {c : Char} (h : text[start]? ≠ some c) : (slice text start stop).head? ≠ some c := by
  rcases Nat.lt_or_ge start stop with lt | ge
  · rwa [List.head?_eq_getElem?, getElem?_slice lt]
  · rw [slice, Nat.sub_eq_zero_of_le ge, List.take_zero]
    exact fun h => nomatch h

theorem getLast?_append_slice (pre : List Char) (h : start < stop) (hs : stop ≤ text.length) :
    (pre ++ slice text start stop).getLast? = text[stop - 1]? := by
  have length : (slice text start stop).length = stop - start := by
    rw [slice, List.length_take, List.length_drop]
    omega
  have last : (slice text start stop)[stop - start - 1]? = text[stop - 1]? := by
    rw [getElem?_slice (by omega)]
    congr 1
    omega
  rw [List.getLast?_append, List.getLast?_eq_getElem?, length, last, List.getElem?_eq_getElem (by omega)]
  rfl

theorem mem_slice {i : Nat} {c : Char} (hi : text[i]? = some c) (h : start ≤ i) (h' : i < stop) :
    c ∈ slice text start stop := by
  obtain ⟨n, rfl⟩ := Nat.exists_eq_add_of_le h
  exact List.mem_of_getElem? ((getElem?_slice h').trans hi)

namespace Snippet

/-- Without NULs all between two places is copied. -/
theorem piece_eq_slice (hn : '\x00' ∉ text) (start stop : Nat) : piece text start stop = slice text start stop := by
  rw [piece, slice, List.takeWhile_eq_self_iff]
  intro c hc
  have hm := (slice_isInfix text start stop).subset hc
  simpa using fun he : c = '\x00' => hn (he ▸ hm)

/-! ## Marks -/

/-- A text without marks. -/
def unmark (s : List Char) : List Char := eraseAll closeMark (eraseAll openMark s)

theorem openMark_eq : openMark = List.replicate 4 '>' := rfl

theorem closeMark_eq : closeMark = List.replicate 4 '<' := rfl

theorem notMem_openMark {c : Char} (h : c ≠ '>') : c ∉ openMark := notMem_replicate h 4

theorem notMem_closeMark {c : Char} (h : c ≠ '<') : c ∉ closeMark := notMem_replicate h 4

theorem eq_of_mem_closeMark {c : Char} (h : c ∈ closeMark) : c = '<' := by
  rw [closeMark_eq] at h
  exact List.eq_of_mem_replicate h

theorem eq_of_mem_ellipsis {c : Char} (h : c ∈ ellipsis) : c = '.' := by
  have dots : ellipsis = List.replicate 3 '.' := rfl
  rw [dots] at h
  exact List.eq_of_mem_replicate h

/-- A mark that opens leaves no trace. -/
theorem unmark_openMark (a b : List Char) : unmark (a ++ openMark ++ b) = unmark (a ++ b) := by
  rw [unmark, openMark_eq, eraseAll_insert (by decide)]
  rfl

/-- A mark that closes leaves no trace unless it stands between signs of an opening mark. -/
theorem unmark_closeMark {a b : List Char} (apart : a.getLast? ≠ some '>' ∨ b.head? ≠ some '>') :
    unmark (a ++ closeMark ++ b) = unmark (a ++ b) := by
  have other : ∀ c ∈ closeMark, c ∉ openMark := fun c hc =>
    notMem_openMark (eq_of_mem_closeMark hc ▸ by decide)
  have cut : eraseAll openMark (a ++ closeMark ++ b) = eraseAll openMark a ++ closeMark ++ eraseAll openMark b :=
    eraseAll_append_append (by decide) b (by decide) other
  have joined : eraseAll openMark (a ++ b) = eraseAll openMark a ++ eraseAll openMark b := by
    rw [openMark_eq]
    exact eraseAll_append (by decide) apart
  rw [unmark, cut, unmark, joined, closeMark_eq, eraseAll_insert (by decide)]

theorem unmark_eq_self {s : List Char} (ho : ¬ openMark <:+: s) (hc : ¬ closeMark <:+: s) : unmark s = s := by
  rw [unmark, eraseAll_eq_self ho, eraseAll_eq_self hc]

/-- Other characters stay. -/
theorem mem_unmark {s : List Char} {c : Char} (ho : c ∉ openMark) (hc : c ∉ closeMark) (h : c ∈ s) : c ∈ unmark s :=
  mem_eraseAll (by decide) hc (mem_eraseAll (by decide) ho h)

theorem unmark_ellipsis (a b : List Char) : unmark (a ++ ellipsis ++ b) = unmark a ++ ellipsis ++ unmark b := by
  have notOpen : ∀ c ∈ ellipsis, c ∉ openMark := fun c hc =>
    notMem_openMark (eq_of_mem_ellipsis hc ▸ by decide)
  have notClose : ∀ c ∈ ellipsis, c ∉ closeMark := fun c hc =>
    notMem_closeMark (eq_of_mem_ellipsis hc ▸ by decide)
  rw [unmark, eraseAll_append_append (by decide) b (by decide) notOpen,
    eraseAll_append_append (by decide) _ (by decide) notClose]
  rfl

/-! ## Drawing up -/

/-- The end of a token is no sign of a mark. -/
theorem ne_sign_of_endsToken {c : Char} (h : EndsToken c) : c ≠ '>' := by
  have sign : isTokenChar '>' = false ∧ isDiacritic '>' = false := by decide +kernel
  rintro rfl
  rcases h with h | h
  · rw [sign.1] at h
    cases h
  · rw [sign.2] at h
    cases h

namespace Draft

/-- Does a draft say without its marks what the text from `first` on says without them, behind `pre`? -/
structure Agrees (text pre : List Char) (first : Nat) (d : Draft) : Prop where
  behind : first ≤ d.copied
  agrees : ∀ rest, unmark (d.out ++ rest) = unmark (pre ++ slice text first d.copied ++ rest)

variable {first index place : Nat} {d : Draft}

theorem Agrees.copyTo (h : d.Agrees text pre first) (hn : '\x00' ∉ text) (hs : d.copied ≤ stop) :
    (d.copyTo text stop).Agrees text pre first := by
  refine ⟨h.behind.trans hs, fun rest => ?_⟩
  show unmark (d.out ++ piece text d.copied stop ++ rest) = unmark (pre ++ slice text first stop ++ rest)
  rw [List.append_assoc, h.agrees, piece_eq_slice hn, ← slice_append h.behind hs]
  simp only [List.append_assoc]

theorem Agrees.openRun (h : d.Agrees text pre first) : d.openRun.Agrees text pre first := by
  unfold Draft.openRun
  split
  · exact h
  · refine ⟨h.behind, fun rest => ?_⟩
    show unmark (d.out ++ openMark ++ rest) = unmark (pre ++ slice text first d.copied ++ rest)
    rw [unmark_openMark, h.agrees]

/-- Closing changes nothing where it parts no signs of an opening mark. -/
theorem Agrees.unmark_closeRun (h : d.Agrees text pre first) {rest : List Char}
    (apart : d.isOpen = true → (pre ++ slice text first d.copied).getLast? ≠ some '>' ∨ rest.head? ≠ some '>') :
    unmark (d.closeRun.out ++ rest) = unmark (pre ++ slice text first d.copied ++ rest) := by
  unfold Draft.closeRun
  split
  · rename_i hopen
    show unmark (d.out ++ closeMark ++ rest) = _
    rw [List.append_assoc, h.agrees, ← List.append_assoc, unmark_closeMark (apart hopen)]
  · exact h.agrees rest

@[simp] theorem copied_closeRun (d : Draft) : d.closeRun.copied = d.copied := by
  unfold Draft.closeRun
  split <;> rfl

@[simp] theorem copied_openRun (d : Draft) : d.openRun.copied = d.copied := by
  unfold Draft.openRun
  split <;> rfl

@[simp] theorem runs_openRun (d : Draft) : d.openRun.runs = d.runs := by
  unfold Draft.openRun
  split <;> rfl

@[simp] theorem isOpen_closeRun (d : Draft) : d.closeRun.isOpen = false := by
  unfold Draft.closeRun
  split
  · rfl
  · rename_i h
    exact Bool.eq_false_of_not_eq_true h

theorem Agrees.closeRun (h : d.Agrees text pre first)
    (last : d.isOpen = true → (pre ++ slice text first d.copied).getLast? ≠ some '>') :
    d.closeRun.Agrees text pre first :=
  ⟨by simpa using h.behind, fun rest => by simpa using h.unmark_closeRun fun hopen => .inl (last hopen)⟩

/--
A draft in front of the token with number `index`, which has copied the text up to `place` at most. A mark
that is open may be closed here, or a token is due to be copied first, which starts here.
-/
structure Follows (text pre : List Char) (first index place : Nat) (d : Draft) : Prop
    extends Agrees text pre first d where
  reached : d.copied ≤ place
  closable : d.isOpen = true → (pre ++ slice text first d.copied).getLast? ≠ some '>' ∨
    text[d.copied]? ≠ some '>' ∧ ∃ run ∈ d.runs.head?, run.1 < index

theorem Follows.mono {index' place' : Nat} (h : d.Follows text pre first index place) (hi : index ≤ index')
    (hp : place ≤ place') : d.Follows text pre first index' place' where
  toAgrees := h.toAgrees
  reached := h.reached.trans hp
  closable hopen := (h.closable hopen).imp_right
    fun ⟨hne, run, hr, hlt⟩ => ⟨hne, run, hr, hlt.trans_le hi⟩

variable {t : Token}

/-- Copied up to the end of a token, a draft may be closed. -/
theorem getLast?_of_standsIn (ht : t.StandsIn text) (hf : first ≤ t.start) :
    (pre ++ slice text first t.stop).getLast? ≠ some '>' := by
  obtain ⟨c, hc, hends⟩ := ht.last
  rw [getLast?_append_slice pre (hf.trans_lt ht.nonempty) ht.inside, hc]
  exact fun h => ne_sign_of_endsToken hends (Option.some.inj h)

/-! ## Passing a token -/

/-- In front of the token with number `i` the mark of a run that has ended is closed. -/
def closeEnded (i : Nat) (d : Draft) : Draft :=
  if d.runs.head?.all fun run => i ≤ run.1 then d.closeRun else d

/-- At its first token a run is opened. -/
def openDue (text : List Char) (i start : Nat) (d : Draft) : Draft :=
  if !d.isOpen && d.runs.head?.any fun run => i = run.1 then (d.copyTo text start).openRun else d

/-- At its last token a run is ended. -/
def endRun (text : List Char) (i stop : Nat) (d : Draft) : Draft :=
  if d.runs.head?.any fun run => i = run.2 then { d.openRun.copyTo text stop with runs := d.runs.tail } else d

/-- At the last token of a window a run that is open is copied up to there. -/
def copyOpen (text : List Char) (i stop : Nat) (d : Draft) : Draft :=
  if d.isOpen && d.runs.head?.any fun run => run.1 ≤ i then d.copyTo text stop else d

theorem passToken_eq (text : List Char) (d : Draft) (t : Token) (i : Nat) :
    d.passToken text (t, i) = ((d.closeEnded i).openDue text i t.start).endRun text i t.stop := by
  unfold Draft.passToken
  dsimp only
  split
  · rename_i last rest heq
    have runs : ((d.closeEnded i).openDue text i t.start).runs = _ := heq
    simp only [endRun, runs, List.head?_cons, Option.any_some, decide_eq_true_eq, List.tail_cons]
    rfl
  · rename_i heq
    have runs : ((d.closeEnded i).openDue text i t.start).runs = _ := heq
    simp only [endRun, runs, List.head?_nil, Option.any_none, Bool.false_eq_true, if_false]
    rfl

theorem endWindow_eq (text : List Char) (d : Draft) (t : Token) (i : Nat) :
    d.endWindow text (t, i) = (d.copyOpen text i t.stop).closeRun.copyTo text t.stop := rfl

/-- A run is closed only if the next one is not yet due. -/
theorem Follows.closeEnded (h : d.Follows text pre first index place) {i : Nat} (hindex : index ≤ i) :
    (d.closeEnded i).Follows text pre first i place := by
  unfold Draft.closeEnded
  split
  · rename_i ended
    refine ⟨h.toAgrees.closeRun fun hopen => ?_, by simpa using h.reached, fun hopen => by simp at hopen⟩
    rcases h.closable hopen with last | ⟨-, run, hr, hlt⟩
    · exact last
    · rw [Option.mem_def] at hr
      rw [hr, Option.all_some, decide_eq_true_eq] at ended
      omega
  · exact h.mono hindex (Nat.le_refl _)

/-- A run is opened where its first token starts. -/
theorem Follows.openDue {i : Nat} (h : d.Follows text pre first i t.start) (hn : '\x00' ∉ text)
    (ht : t.StandsIn text) : (d.openDue text i t.start).Follows text pre first (i + 1) t.start := by
  unfold Draft.openDue
  split
  · rename_i due
    rw [Bool.and_eq_true] at due
    obtain ⟨run, hr, hrun⟩ := (Option.any_eq_true _ _).1 due.2
    have here : i = run.1 := of_decide_eq_true hrun
    have copied : (d.copyTo text t.start).openRun.copied = t.start := copied_openRun _
    have runs : (d.copyTo text t.start).openRun.runs = d.runs := runs_openRun _
    refine ⟨(h.toAgrees.copyTo hn h.reached).openRun, copied.le, fun _ => .inr ?_⟩
    obtain ⟨c, hc, htoken⟩ := ht.first
    rw [copied, runs, hc]
    exact ⟨fun he => ne_sign_of_endsToken (.inl htoken) (Option.some.inj he), run, hr, by omega⟩
  · exact h.mono (Nat.le_succ i) (Nat.le_refl _)

/-- A run ends where its last token does. -/
theorem Follows.endRun {i : Nat} (h : d.Follows text pre first index t.start) (hn : '\x00' ∉ text)
    (ht : t.StandsIn text) : (d.endRun text i t.stop).Follows text pre first index t.stop := by
  unfold Draft.endRun
  split
  · have reach : d.openRun.copied ≤ t.stop := by simpa using h.reached.trans ht.nonempty.le
    have copied := h.toAgrees.openRun.copyTo hn reach
    exact ⟨⟨copied.behind, copied.agrees⟩, Nat.le_refl _,
      fun _ => .inl (getLast?_of_standsIn ht (h.behind.trans h.reached))⟩
  · exact h.mono (Nat.le_refl _) ht.nonempty.le

/-- One token keeps the draft true to the text. -/
theorem Follows.passToken (h : d.Follows text pre first index place) (hn : '\x00' ∉ text) (ht : t.StandsIn text)
    (hplace : place ≤ t.start) {i : Nat} (hindex : index ≤ i) :
    (d.passToken text (t, i)).Follows text pre first (i + 1) t.stop := by
  rw [passToken_eq]
  have closed := (h.closeEnded hindex).mono (Nat.le_refl i) hplace
  exact (closed.openDue hn ht).endRun hn ht

/-- A run that is open at the end of a window may be closed there. -/
theorem Follows.copyOpen {i : Nat} (h : d.Follows text pre first (i + 1) t.stop) (hn : '\x00' ∉ text)
    (ht : t.StandsIn text) (hf : first ≤ t.start) :
    (d.copyOpen text i t.stop).Agrees text pre first ∧ (d.copyOpen text i t.stop).copied ≤ t.stop ∧
      ((d.copyOpen text i t.stop).isOpen = true →
        (pre ++ slice text first (d.copyOpen text i t.stop).copied).getLast? ≠ some '>') := by
  unfold Draft.copyOpen
  split
  · exact ⟨h.toAgrees.copyTo hn h.reached, Nat.le_refl _, fun _ => getLast?_of_standsIn ht hf⟩
  · rename_i none
    refine ⟨h.toAgrees, h.reached, fun hopen => (h.closable hopen).resolve_right ?_⟩
    rintro ⟨-, run, hr, hlt⟩
    rw [hopen, Bool.true_and, Option.any_eq_true] at none
    exact none ⟨run, hr, decide_eq_true (Nat.le_of_lt_succ hlt)⟩

/-- The end of a window keeps the draft true to the text, copies it up to there and leaves no mark open. -/
theorem Follows.endWindow {i : Nat} (h : d.Follows text pre first (i + 1) t.stop) (hn : '\x00' ∉ text)
    (ht : t.StandsIn text) (hf : first ≤ t.start) :
    (d.endWindow text (t, i)).Agrees text pre first ∧ (d.endWindow text (t, i)).isOpen = false := by
  rw [endWindow_eq]
  obtain ⟨agrees, reached, last⟩ := h.copyOpen hn ht hf
  exact ⟨(agrees.closeRun last).copyTo hn (by simpa using reached), isOpen_closeRun _⟩

/-! ## A window -/

/-- Are these tokens of a text one behind another, numbered in rising order? -/
def InOrder (text : List Char) (window : List (Token × Nat)) : Prop :=
  (∀ x ∈ window, x.1.StandsIn text) ∧ window.Pairwise fun x y => x.1.stop ≤ y.1.start ∧ x.2 < y.2

/-- A window of tokens keeps the draft true to the text. -/
theorem Follows.foldl (hn : '\x00' ∉ text) : ∀ (window : List (Token × Nat)) {d : Draft} {index place : Nat},
    d.Follows text pre first index place → InOrder text window →
      (∀ x ∈ window.head?, place ≤ x.1.start ∧ index ≤ x.2) →
        ∃ index' place', (window.foldl (Draft.passToken text) d).Follows text pre first index' place' ∧
          ∀ x ∈ window.getLast?, index' = x.2 + 1 ∧ place' = x.1.stop
  | [], _, index, place, h, _, _ => ⟨index, place, h, fun _ hx => nomatch hx⟩
  | x :: rest, d, _, _, h, hw, hhead => by
    obtain ⟨hplace, hindex⟩ := hhead x rfl
    obtain ⟨standing, apart⟩ := hw
    obtain ⟨behind, ordered⟩ := List.pairwise_cons.1 apart
    have passed := h.passToken hn (standing x List.mem_cons_self) hplace hindex
    cases rest with
    | nil =>
      refine ⟨_, _, passed, fun y hy => ?_⟩
      cases hy
      exact ⟨rfl, rfl⟩
    | cons y rest =>
      have later := passed.foldl hn (y :: rest)
        ⟨fun z hz => standing z (List.mem_cons_of_mem _ hz), ordered⟩
        fun z hz => by
          cases hz
          have next := behind y List.mem_cons_self
          exact ⟨next.1, next.2⟩
      rwa [List.getLast?_cons_cons]

/-- The draft of a window, which is ended if it is full. -/
def drawn (text : List Char) (d : Draft) (window : List (Token × Nat)) : Draft :=
  let d := window.foldl (Draft.passToken text) d
  match window.getLast? with
  | some last => if window.length = width then d.endWindow text last else d
  | none => d

/-- A window of tokens is drawn true to the text, up to the end of its last token if it is full. -/
theorem Follows.drawn {d : Draft} {window : List (Token × Nat)} {i : Nat} (h : d.Follows text pre first 0 first)
    (hn : '\x00' ∉ text) (hw : InOrder text window) (hf : ∀ x ∈ window, first ≤ x.1.start)
    (hlast : window.getLast? = some (t, i)) :
    (d.drawn text window).Agrees text pre first ∧ (d.drawn text window).copied ≤ t.stop ∧
      ((d.drawn text window).isOpen = true →
        (pre ++ slice text first (d.drawn text window).copied).getLast? ≠ some '>' ∨
          text[(d.drawn text window).copied]? ≠ some '>') ∧
      (window.length = width → (d.drawn text window).copied = t.stop) := by
  have hm := List.mem_of_getLast? hlast
  obtain ⟨_, _, folded, hend⟩ := h.foldl hn window hw
    fun x hx => ⟨hf x (List.mem_of_head? hx), Nat.zero_le _⟩
  obtain ⟨rfl, rfl⟩ := hend (t, i) hlast
  unfold Draft.drawn
  rw [hlast]
  dsimp only
  split
  · have ended := folded.endWindow hn (hw.1 _ hm) (hf _ hm)
    exact ⟨ended.1, Nat.le_refl _, fun hopen => absurd hopen (by simp [ended.2]), fun _ => rfl⟩
  · rename_i short
    exact ⟨folded.toAgrees, folded.reached, fun hopen => (folded.closable hopen).imp_right And.left,
      fun full => absurd full short⟩

end Draft

theorem inOrder_zipIdx (text : List Char) : Draft.InOrder text (tokens text).zipIdx := by
  constructor
  · intro x hx
    exact standsIn_of_mem_tokens (List.fst_mem_of_mem_zipIdx hx)
  · rw [List.pairwise_iff_getElem]
    intro i j hi hj hij
    rw [List.getElem_zipIdx, List.getElem_zipIdx]
    refine ⟨List.pairwise_iff_getElem.1 (pairwise_tokens text) i j _ _ hij, ?_⟩
    simpa using hij

/-! ## A snippet -/

/-- What may stand at an end of a snippet: nothing, or the mark of something left out. -/
def IsEnd (s : List Char) : Prop := s = [] ∨ s = ellipsis

theorem unmark_nil : unmark [] = [] := by rw [unmark, eraseAll_nil, eraseAll_nil]

theorem unmark_between {pre post : List Char} (hpre : IsEnd pre) (hpost : IsEnd post) (s : List Char) :
    unmark (pre ++ s ++ post) = pre ++ unmark s ++ post := by
  have front : ∀ b, unmark (pre ++ b) = pre ++ unmark b := by
    intro b
    rcases hpre with rfl | rfl
    · rfl
    · have cut := unmark_ellipsis [] b
      rwa [unmark_nil, List.nil_append] at cut
  rcases hpost with rfl | rfl
  · rw [List.append_nil, List.append_nil, front]
  · have cut := unmark_ellipsis (pre ++ s) []
    rwa [unmark_nil, List.append_nil, List.append_nil, front] at cut

/-- A token behind `first` puts a token character into what is copied up to its end or further. -/
theorem exists_mem_slice {t : Token} {first stop : Nat} (ht : t.StandsIn text) (hf : first ≤ t.start)
    (hs : t.stop ≤ stop) : ∃ c ∈ slice text first stop, isTokenChar c = true := by
  obtain ⟨c, hc, htoken⟩ := ht.first
  exact ⟨c, mem_slice hc hf (ht.nonempty.trans_le hs), htoken⟩

/-- A draft that is closed and goes on to the end of the text shows all from `first` on. -/
theorem Draft.Agrees.unmark_rest {d : Draft} {pre : List Char} {first : Nat} (h : d.Agrees text pre first)
    (hn : '\x00' ∉ text) (hpre : IsEnd pre) (reached : d.copied ≤ text.length)
    (closable : d.isOpen = true →
      (pre ++ slice text first d.copied).getLast? ≠ some '>' ∨ text[d.copied]? ≠ some '>') :
    unmark (d.closeRun.out ++ piece text d.closeRun.copied text.length) =
      pre ++ unmark (slice text first text.length) ++ [] := by
  rw [Draft.copied_closeRun, piece_eq_slice hn,
    h.unmark_closeRun fun hopen => (closable hopen).imp_right head?_slice_ne, List.append_assoc,
    slice_append h.behind reached, ← unmark_between hpre (.inl rfl), List.append_nil]

/-- Where a window starts to be copied: at its first token, or from the start of the text. -/
def copyStart (window : List (Token × Nat)) (start : Nat) : Nat :=
  if start = 0 then 0 else (window.head?.map (·.1.start)).getD 0

theorem copyStart_le {window : List (Token × Nat)} (hw : Draft.InOrder text window) (start : Nat) :
    ∀ x ∈ window, copyStart window start ≤ x.1.start := by
  intro x hx
  unfold copyStart
  split
  · exact Nat.zero_le _
  · obtain ⟨standing, ordered⟩ := hw
    cases window with
    | nil => cases hx
    | cons y rest =>
      rcases List.mem_cons.1 hx with rfl | hx
      · exact Nat.le_refl _
      · have first := standing y List.mem_cons_self
        exact first.nonempty.le.trans ((List.pairwise_cons.1 ordered).1 x hx).1

/-- The window from token `start` on. -/
def windowFrom (text : List Char) (start : Nat) : List (Token × Nat) := ((tokens text).zipIdx.drop start).take width

theorem length_windowFrom (text : List Char) (start : Nat) :
    (windowFrom text start).length = min width ((tokens text).length - start) := by
  rw [windowFrom, List.length_take, List.length_drop, List.length_zipIdx]

theorem inOrder_windowFrom (text : List Char) (start : Nat) : Draft.InOrder text (windowFrom text start) := by
  have sub : (windowFrom text start).Sublist (tokens text).zipIdx := (List.take_sublist ..).trans (List.drop_sublist ..)
  obtain ⟨standing, ordered⟩ := inOrder_zipIdx text
  exact ⟨fun x hx => standing x (sub.subset hx), ordered.sublist sub⟩

theorem isEnd_ite (start : Nat) : IsEnd (if start = 0 then [] else ellipsis) := by
  split
  · exact .inl rfl
  · exact .inr rfl

/-- A draft that has copied nothing yet is true to the text. -/
theorem Draft.follows_start (text pre : List Char) (first : Nat) (runs : List (Nat × Nat)) :
    Draft.Follows text pre first 0 first ⟨pre, first, false, runs⟩ := by
  refine ⟨⟨Nat.le_refl _, fun rest => ?_⟩, Nat.le_refl _, fun hopen => nomatch hopen⟩
  show unmark (pre ++ rest) = unmark (pre ++ slice text first first ++ rest)
  rw [slice_self, List.append_nil]

/--
Without its marks a snippet is a slice of the text without the marks that the text itself holds, with an
ellipsis at an end where something is left out; and some token stands in the slice.
-/
theorem unmark_render (hn : '\x00' ∉ text) (ht : tokens text ≠ []) (found : List Instance) (start : Nat) :
    ∃ pre part post, IsEnd pre ∧ IsEnd post ∧ part <:+: text ∧ (∃ c ∈ part, isTokenChar c = true) ∧
      unmark (render text (tokens text) found start) = pre ++ unmark part ++ post := by
  let window := windowFrom text start
  let pre := if start = 0 then [] else ellipsis
  let first := copyStart window start
  obtain ⟨runs, drawn⟩ : ∃ runs, render text (tokens text) found start =
      let d := (Draft.drawn text ⟨pre, first, false, runs⟩ window).closeRun
      if (tokens text).length ≤ start + width then d.out ++ piece text d.copied text.length
      else d.out ++ ellipsis := ⟨_, rfl⟩
  let d : Draft := ⟨pre, first, false, runs⟩
  have hpre : IsEnd pre := isEnd_ite start
  have length : window.length = min width ((tokens text).length - start) := length_windowFrom text start
  have hw : Draft.InOrder text window := inOrder_windowFrom text start
  have init : d.Follows text pre first 0 first := Draft.follows_start ..
  rw [drawn]
  dsimp only
  rcases hlast : window.getLast? with _ | ⟨t, i⟩
  · -- no token in the window: the whole text follows
    have none : window = [] := List.getLast?_eq_none_iff.1 hlast
    have zero : first = 0 := by
      show copyStart window start = 0
      rw [none, copyStart]
      split <;> rfl
    have few : (tokens text).length ≤ start + width := by
      rw [none] at length
      have : 0 < width := by decide
      simp only [List.length_nil] at length
      omega
    have same : d.drawn text window = d := by
      rw [none]
      rfl
    obtain ⟨t, hm⟩ := List.exists_mem_of_ne_nil _ ht
    have standing := standsIn_of_mem_tokens hm
    rw [if_pos few, same, init.unmark_rest hn hpre (zero.trans_le (Nat.zero_le _)) fun hopen => nomatch hopen]
    exact ⟨pre, slice text first text.length, [], hpre, .inl rfl, slice_isInfix ..,
      exists_mem_slice standing (zero.trans_le (Nat.zero_le _)) standing.inside, rfl⟩
  · have hfirst : ∀ x ∈ window, first ≤ x.1.start := copyStart_le hw start
    obtain ⟨agrees, reached, closable, full⟩ := init.drawn hn hw hfirst hlast
    have hm := List.mem_of_getLast? hlast
    have standing := hw.1 _ hm
    split
    · rw [agrees.unmark_rest hn hpre (reached.trans standing.inside) closable]
      exact ⟨pre, slice text first text.length, [], hpre, .inl rfl, slice_isInfix ..,
        exists_mem_slice standing (hfirst _ hm) standing.inside, rfl⟩
    · rename_i many
      -- the window is full, and ends where the last token does
      have wide : window.length = width := by omega
      rw [agrees.unmark_closeRun fun _ => .inr (by decide), full wide, unmark_between hpre (.inr rfl)]
      exact ⟨pre, slice text first t.stop, ellipsis, hpre, .inr rfl, slice_isInfix ..,
        exists_mem_slice standing (hfirst _ hm) (Nat.le_refl _), rfl⟩

end Snippet

end Concordance.Index
