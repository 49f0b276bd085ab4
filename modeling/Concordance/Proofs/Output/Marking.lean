/-
What is marked in a context. The words of a label are tried at each place in the order of the label, and the first
that stands there is marked: not the longest. A word that no other one reaches into is therefore marked as a whole
unless the label has a shorter word before it with which it starts; then only that much of it is marked. Whatever
is marked, without the marks the context is what it was.
-/
import Concordance.Output.Mark
import Concordance.Proofs.Scan.Occurrences

namespace Concordance.Output

open Text

/-! ## Words at a place -/

/-- Does a word stand at a place in a text, in whatever case? -/
def StandsAt (w text : List Char) (place : Nat) : Prop := (Scan.Pattern.mk w false false).OccursIn text place

/-- Is a word the first of the words to stand at a place? -/
def StandsFirst (words : List (List Char)) (v text : List Char) (place : Nat) : Prop :=
  ∃ before after, words = before ++ v :: after ∧ StandsAt v text place ∧ ∀ u ∈ before, ¬StandsAt u text place

/-- Does one of the words stand at a place, into which none of them reaches that starts earlier? -/
structure StandsFree (words : List (List Char)) (w text : List Char) (place : Nat) : Prop where
  mem : w ∈ words
  stands : StandsAt w text place
  free : ∀ v ∈ words, ∀ start < place, StandsAt v text start → start + v.length ≤ place

/-- Is no word hidden? One is if, of the words that it starts with, a shorter one comes first. -/
def NoneHidden (words : List (List Char)) : Prop := ∀ w ∈ words, ∃ v, StandsFirst words v w 0 ∧ w.length ≤ v.length

variable {words : List (List Char)} {v w text : List Char} {place : Nat}

theorem standsAt_iff (hw : w ≠ []) :
    StandsAt w text place ↔ w.map foldCase <+: (text.drop place).map foldCase := by
  constructor
  · intro h
    have letters : ((text.drop place).take w.length).map foldCase = w.map foldCase := h.letters
    rw [← letters]
    exact (List.take_prefix _ _).map _
  · intro h
    have short := h.length_le
    have some := List.length_pos_iff.2 hw
    rw [List.length_map, List.length_map, List.length_drop] at short
    refine ⟨?inside, ?letters, fun whole => Bool.noConfusion whole⟩
    case inside =>
      show place + w.length ≤ text.length
      omega
    case letters =>
      have taken := List.prefix_iff_eq_take.1 h
      rw [List.length_map, ← List.map_take] at taken
      exact taken.symm

theorem standsAt_drop (hw : w ≠ []) (n : Nat) : StandsAt w (text.drop n) place ↔ StandsAt w text (n + place) := by
  rw [standsAt_iff hw, standsAt_iff hw, List.drop_drop]

theorem standsAt_self (w : List Char) : StandsAt w w 0 := by
  refine ⟨?inside, ?letters, fun whole => Bool.noConfusion whole⟩
  case inside => exact Nat.le_of_eq (Nat.zero_add _)
  case letters => rw [List.drop_zero, List.take_length]

theorem StandsFirst.mem (h : StandsFirst words v text place) : v ∈ words := by
  obtain ⟨before, after, rfl, -, -⟩ := h
  exact List.mem_append_right _ List.mem_cons_self

theorem StandsFirst.stands (h : StandsFirst words v text place) : StandsAt v text place := by
  obtain ⟨_, _, -, stands, -⟩ := h
  exact stands

/-- If any of the words stands at a place, one is the first. -/
theorem exists_standsFirst (h : ∃ v ∈ words, StandsAt v text place) : ∃ v, StandsFirst words v text place := by
  classical
  obtain ⟨u, hu, stands⟩ := h
  have found : (words.find? (decide <| StandsAt · text place)).isSome :=
    List.find?_isSome.2 ⟨u, hu, decide_eq_true stands⟩
  obtain ⟨v, hv⟩ := Option.isSome_iff_exists.1 found
  obtain ⟨standing, before, after, split, none⟩ := List.find?_eq_some_iff_append.1 hv
  refine ⟨v, before, after, split, of_decide_eq_true standing, fun u hu => ?_⟩
  simpa using none u hu

section NonEmpty

variable (hw : ∀ w ∈ words, w ≠ [])
include hw

theorem standsFirst_drop (n : Nat) :
    StandsFirst words v (text.drop n) place ↔ StandsFirst words v text (n + place) := by
  unfold StandsFirst
  refine exists_congr fun before => exists_congr fun after => and_congr_right fun split => ?_
  have nonempty : ∀ u ∈ before ++ v :: after, u ≠ [] := split ▸ hw
  refine and_congr (standsAt_drop (nonempty v (by simp)) n) (forall₂_congr fun u hu => not_congr ?_)
  exact standsAt_drop (nonempty u (List.mem_append_left _ hu)) n

theorem standsFirst_cons (c : Char) : StandsFirst words v text place ↔ StandsFirst words v (c :: text) (1 + place) := by
  show StandsFirst words v ((c :: text).drop 1) place ↔ _
  exact standsFirst_drop hw 1

/-- Nothing reaches into the place from a later start. -/
theorem StandsFree.drop {n : Nat} (h : StandsFree words w text (n + place)) :
    StandsFree words w (text.drop n) place where
  mem := h.mem
  stands := (standsAt_drop (hw w h.mem) n).2 h.stands
  free v hv start before stands := by
    have reach := h.free v hv (n + start) (by omega) ((standsAt_drop (hw v hv) n).1 stands)
    omega

/-- The word that is looked for at a place is the first to stand there. -/
theorem wordAt?_eq_some_iff {n : Nat} :
    wordAt? words text = some n ↔ ∃ v, StandsFirst words v text 0 ∧ v.length = n := by
  have starts : ∀ u ∈ words, (Scan.Pattern.startsWith ⟨u, false, false⟩ u text = true ↔ StandsAt u text 0) := by
    intro u hu
    rw [Scan.Pattern.startsWith_iff, standsAt_iff (hw u hu)]
    rfl
  rw [wordAt?, Option.map_eq_some_iff]
  refine exists_congr fun v => and_congr_left' ?_
  rw [List.find?_eq_some_iff_append]
  constructor
  · rintro ⟨here, before, after, rfl, none⟩
    refine ⟨before, after, rfl, (starts v (by simp)).1 here, fun u hu stands => ?_⟩
    have not := none u hu
    rw [(starts u (List.mem_append_left _ hu)).2 stands] at not
    cases not
  · rintro ⟨before, after, rfl, here, none⟩
    refine ⟨(starts v (by simp)).2 here, before, after, rfl, fun u hu => ?_⟩
    rw [Bool.not_eq_true', ← Bool.not_eq_true, starts u (List.mem_append_left _ hu)]
    exact none u hu

/-- The first word to stand at a place has one length. -/
theorem StandsFirst.length_eq {u : List Char} (hu : StandsFirst words u text place)
    (hv : StandsFirst words v text place) : u.length = v.length := by
  have first : ∀ {u : List Char}, StandsFirst words u text place → wordAt? words (text.drop place) = some u.length :=
    fun h => (wordAt?_eq_some_iff hw).2 ⟨_, (standsFirst_drop hw place).2 h, rfl⟩
  exact Option.some.inj ((first hu).symm.trans (first hv))

/-- A word that is hidden somewhere is hidden in itself. -/
theorem NoneHidden.exists_standsFirst (h : NoneHidden words) (hm : w ∈ words) (hs : StandsAt w text place) :
    ∃ v, StandsFirst words v text place ∧ w.length ≤ v.length := by
  obtain ⟨v, first⟩ := Output.exists_standsFirst ⟨w, hm, hs⟩
  refine ⟨v, first, Nat.le_of_not_lt fun shorter => ?_⟩
  have hv : v ≠ [] := hw v first.mem
  have whole : w.map foldCase <+: (text.drop place).map foldCase := (standsAt_iff (hw w hm)).1 hs
  have part : v.map foldCase <+: (text.drop place).map foldCase := (standsAt_iff hv).1 first.stands
  have inWord : StandsFirst words v w 0 := by
    obtain ⟨before, after, split, -, none⟩ := first
    refine ⟨before, after, split, (standsAt_iff hv).2 ?_, fun u hu here => none u hu ?_⟩
    · exact List.prefix_of_prefix_length_le part whole (by simpa using shorter.le)
    · have nonempty : u ≠ [] := hw u (split ▸ List.mem_append_left _ hu)
      exact (standsAt_iff nonempty).2 (((standsAt_iff nonempty).1 here).trans whole)
  obtain ⟨v', first', long⟩ := h w hm
  have same : v.length = v'.length := inWord.length_eq hw first'
  omega

end NonEmpty

/-! ## Stretches -/

/-- A part of a text, which is marked or is not. -/
structure Stretch where
  text : List Char
  marked : Bool

/-- A stretch between marks, if it is marked. -/
def Stretch.written (opening closing : List Char) (x : Stretch) : List Char :=
  if x.marked then opening ++ x.text ++ closing else x.text

/-- Stretches, one behind the other, with the marks. -/
def written (opening closing : List Char) (cut : List Stretch) : List Char := cut.flatMap (·.written opening closing)

/-- Stretches without the marks. -/
def plain (cut : List Stretch) : List Char := cut.flatMap (·.text)

theorem plain_cons (x : Stretch) (cut : List Stretch) : plain (x :: cut) = x.text ++ plain cut := List.flatMap_cons ..

theorem plain_append (cut cut' : List Stretch) : plain (cut ++ cut') = plain cut ++ plain cut' :=
  List.flatMap_append ..

/-- Does one marked stretch hold so many characters from a place on? -/
def Encloses (cut : List Stretch) (place length : Nat) : Prop :=
  ∃ before x after, cut = before ++ x :: after ∧ x.marked = true ∧
    (plain before).length ≤ place ∧ place + length ≤ (plain before).length + x.text.length

theorem encloses_cons {x : Stretch} {cut : List Stretch} {length : Nat} :
    Encloses (x :: cut) place length ↔
      (x.marked = true ∧ place + length ≤ x.text.length) ∨
        (x.text.length ≤ place ∧ Encloses cut (place - x.text.length) length) := by
  constructor
  · rintro ⟨before, y, after, split, marked, start, stop⟩
    cases before with
    | nil =>
      obtain ⟨rfl, rfl⟩ := List.cons.inj split
      exact .inl ⟨marked, Nat.zero_add x.text.length ▸ stop⟩
    | cons z before =>
      obtain ⟨rfl, rfl⟩ := List.cons.inj split
      rw [plain_cons, List.length_append] at start stop
      exact .inr ⟨by omega, before, y, after, rfl, marked, by omega, by omega⟩
  · rintro (⟨marked, stop⟩ | ⟨behind, before, y, after, rfl, marked, start, stop⟩)
    · exact ⟨[], x, cut, rfl, marked, Nat.zero_le _, (Nat.zero_add x.text.length).symm ▸ stop⟩
    · refine ⟨x :: before, y, after, rfl, marked, ?_, ?_⟩
      all_goals
        rw [plain_cons, List.length_append]
        omega

/-! ## Cutting -/

/-- A text is cut, from the left, into words, each the first to stand at its place, and characters where none stands. -/
inductive Cuts (words : List (List Char)) : List Char → List Stretch → Prop where
  | done : Cuts words [] []
  | word {v text : List Char} {cut : List Stretch} (first : StandsFirst words v text 0)
    (rest : Cuts words (text.drop v.length) cut) : Cuts words text (⟨text.take v.length, true⟩ :: cut)
  | gap {c : Char} {text : List Char} {cut : List Stretch} (none : ∀ v ∈ words, ¬StandsAt v (c :: text) 0)
    (rest : Cuts words text cut) : Cuts words (c :: text) (⟨[c], false⟩ :: cut)

/-- Without the marks the text is what it was. -/
theorem Cuts.plain_eq {cut : List Stretch} (h : Cuts words text cut) : plain cut = text := by
  induction h with
  | done => rfl
  | word _ _ ih => rw [plain_cons, ih, List.take_append_drop]
  | gap _ _ ih => rw [plain_cons, ih, List.singleton_append]

/-- The word that is being marked is copied to its end. -/
theorem markFrom_inside (opening closing : List Char) : ∀ (n : Nat) (text : List Char), n < text.length →
    markFrom words opening closing (n + 1) text =
      text.take (n + 1) ++ closing ++ markFrom words opening closing 0 (text.drop (n + 1))
  | 0, c :: text, _ => by rw [markFrom]; rfl
  | n + 1, c :: text, h => by
    rw [markFrom, markFrom_inside opening closing n text (Nat.lt_of_succ_lt_succ h)]
    rfl

theorem StandsAt.length_le (h : StandsAt w text 0) : w.length ≤ text.length := by
  have inside : 0 + w.length ≤ text.length := h.inside
  rwa [Nat.zero_add] at inside

section NonEmpty

variable (hw : ∀ w ∈ words, w ≠ [])
include hw

theorem exists_cuts : ∀ text : List Char, ∃ cut, Cuts words text cut
  | [] => ⟨[], .done⟩
  | c :: text => by
    by_cases here : ∃ v ∈ words, StandsAt v (c :: text) 0
    · obtain ⟨v, first⟩ := exists_standsFirst here
      have some : 0 < v.length := List.length_pos_iff.2 (hw v first.mem)
      obtain ⟨cut, rest⟩ := exists_cuts ((c :: text).drop v.length)
      exact ⟨_, .word first rest⟩
    · simp only [not_exists, not_and] at here
      obtain ⟨cut, rest⟩ := exists_cuts text
      exact ⟨_, .gap here rest⟩
  termination_by text => text.length
  decreasing_by
    · rw [List.length_drop, List.length_cons]
      omega
    · exact Nat.lt_succ_self _

variable (opening closing : List Char)

theorem markFrom_word (h : StandsFirst words v text 0) :
    markFrom words opening closing 0 text =
      opening ++ text.take v.length ++ closing ++ markFrom words opening closing 0 (text.drop v.length) := by
  have found : wordAt? words text = some v.length := (wordAt?_eq_some_iff hw).2 ⟨v, h, rfl⟩
  have long : v.length ≤ text.length := h.stands.length_le
  have some : v.length ≠ 0 := fun none => hw v h.mem (List.length_eq_zero_iff.1 none)
  generalize v.length = n at found long some
  match n, text, some, long with
  | 1, c :: text, _, _ =>
    rw [markFrom, found]
    simp
  | n + 2, c :: text, _, long =>
    rw [markFrom, found]
    dsimp only
    rw [markFrom_inside opening closing n text (by simpa using long)]
    simp

theorem markFrom_gap {c : Char} (h : ∀ v ∈ words, ¬StandsAt v (c :: text) 0) :
    markFrom words opening closing 0 (c :: text) = c :: markFrom words opening closing 0 text := by
  have none : wordAt? words (c :: text) = none := by
    refine Option.eq_none_iff_forall_ne_some.2 fun n found => ?_
    obtain ⟨v, first, -⟩ := (wordAt?_eq_some_iff hw).1 found
    exact h v first.mem first.stands
  rw [markFrom, none]

/-- Marking a text writes its stretches. -/
theorem Cuts.written_eq {cut : List Stretch} (h : Cuts words text cut) :
    markFrom words opening closing 0 text = written opening closing cut := by
  induction h with
  | done => rfl
  | word first _ ih =>
    rw [markFrom_word hw opening closing first, ih]
    rfl
  | gap none _ ih =>
    rw [markFrom_gap hw opening closing none, ih]
    rfl

/-- What is marked is the first word to stand at its place. -/
theorem Cuts.standsFirst {cut : List Stretch} (h : Cuts words text cut) :
    ∀ {before after : List Stretch} {x : Stretch}, cut = before ++ x :: after → x.marked = true →
      ∃ v, StandsFirst words v text (plain before).length ∧
        x.text = (text.drop (plain before).length).take v.length := by
  induction h with
  | done => exact fun split => absurd split.symm (by simp)
  | @word v text cut first rest ih =>
    intro before after x split marked
    cases before with
    | nil =>
      obtain ⟨rfl, -⟩ := List.cons.inj split
      exact ⟨v, first, rfl⟩
    | cons z before =>
      obtain ⟨rfl, tail⟩ := List.cons.inj split
      obtain ⟨u, hu, part⟩ := ih tail marked
      have place : (plain (⟨text.take v.length, true⟩ :: before)).length = v.length + (plain before).length := by
        rw [plain_cons, List.length_append, List.length_take_of_le first.stands.length_le]
      rw [place]
      exact ⟨u, (standsFirst_drop hw _).1 hu, by rw [part, List.drop_drop]⟩
  | @gap c text cut none rest ih =>
    intro before after x split marked
    cases before with
    | nil =>
      obtain ⟨rfl, -⟩ := List.cons.inj split
      cases marked
    | cons z before =>
      obtain ⟨rfl, tail⟩ := List.cons.inj split
      obtain ⟨u, hu, part⟩ := ih tail marked
      have place : (plain (⟨[c], false⟩ :: before)).length = 1 + (plain before).length := by
        rw [plain_cons, List.length_append, List.length_singleton]
      rw [place]
      exact ⟨u, (standsFirst_cons hw c).1 hu, by rw [part, ← List.drop_drop]; rfl⟩

/-- A word that none reaches into is marked as a whole unless the first word to stand at its place is shorter. -/
theorem Cuts.encloses_iff {cut : List Stretch} (h : Cuts words text cut) :
    ∀ {place : Nat}, StandsFree words w text place →
      (Encloses cut place w.length ↔ ∃ v, StandsFirst words v text place ∧ w.length ≤ v.length) := by
  induction h with
  | done =>
    intro place hs
    have inside : place + w.length ≤ 0 := hs.stands.inside
    exact absurd (List.length_eq_zero_iff.1 (by omega)) (hw w hs.mem)
  | @word v text cut first rest ih =>
    intro place hs
    have some : 0 < w.length := List.length_pos_iff.2 (hw w hs.mem)
    have long : 0 < v.length := List.length_pos_iff.2 (hw v first.mem)
    have length : (text.take v.length).length = v.length := List.length_take_of_le first.stands.length_le
    rw [encloses_cons, length]
    rcases Nat.eq_zero_or_pos place with rfl | behind
    · -- the word that is marked here decides
      constructor
      · rintro (⟨-, stop⟩ | ⟨stop, -⟩)
        · exact ⟨v, first, by omega⟩
        · omega
      · rintro ⟨u, hu, stop⟩
        have same : u.length = v.length := hu.length_eq hw first
        exact .inl ⟨rfl, by omega⟩
    · -- the word that is marked here ends before
      have reach : v.length ≤ place := by simpa using hs.free v first.mem 0 behind first.stands
      obtain ⟨k, rfl⟩ := Nat.exists_eq_add_of_le reach
      rw [Nat.add_sub_cancel_left, or_iff_right (by omega), and_iff_right reach, ih (hs.drop hw)]
      simp only [standsFirst_drop hw]
  | @gap c text cut none rest ih =>
    intro place hs
    rw [encloses_cons]
    cases place with
    | zero => exact absurd hs.stands (none w hs.mem)
    | succ k =>
      rw [Nat.add_comm k 1] at hs ⊢
      have behind : [c].length ≤ 1 + k := Nat.le_add_right 1 k
      rw [or_iff_right (fun x => nomatch x.1), and_iff_right behind, List.length_singleton, Nat.add_sub_cancel_left,
        ih (hs.drop hw)]
      simp only [← standsFirst_cons hw c]

theorem noneHidden_iff :
    NoneHidden words ↔ ∀ text w place, StandsFree words w text place →
      ∃ v, StandsFirst words v text place ∧ w.length ≤ v.length := by
  constructor
  · exact fun h text w place hs => h.exists_standsFirst hw hs.mem hs.stands
  · exact fun h w hm => h w w 0 ⟨hm, standsAt_self w, fun _ _ _ before => absurd before (Nat.not_lt_zero _)⟩

end NonEmpty

/-! ## Labels -/

theorem ne_nil_of_mem_labelWords {label w : List Char} (h : w ∈ labelWords label) : w ≠ [] := by
  rintro rfl
  exact Bool.noConfusion (List.mem_filter.1 h).2

/-- Do stretches make up a context, and show what is marked in it, whatever the marks are? -/
structure Shows (cut : List Stretch) (context label : String) : Prop where
  plain : plain cut = context.toList
  mark : ∀ opening closing : String,
    mark context label opening closing = String.ofList (written opening.toList closing.toList cut)

/--
Every context is made up of stretches, of which those between the marks are words of the label, each the first to
stand at its place. A word of the label that no other one reaches into from an earlier start lies inside one of them
exactly if the first word to stand at its place is as long. So it is for all such words, in all contexts, exactly if
the label hides none of its words.
-/
theorem mark_encloses_iff (label : String) :
    let words := labelWords label.toList
    (∀ context : String, ∃ cut : List Stretch, Shows cut context label ∧
      (∀ before x after, cut = before ++ x :: after → x.marked = true →
        ∃ v, StandsFirst words v context.toList (plain before).length ∧
          x.text = (context.toList.drop (plain before).length).take v.length) ∧
      ∀ w place, StandsFree words w context.toList place →
        (Encloses cut place w.length ↔ ∃ v, StandsFirst words v context.toList place ∧ w.length ≤ v.length)) ∧
    ((∀ (context : String) w place, StandsFree words w context.toList place →
        ∃ v, StandsFirst words v context.toList place ∧ w.length ≤ v.length) ↔ NoneHidden words) := by
  intro words
  have nonempty : ∀ w ∈ words, w ≠ [] := fun w => ne_nil_of_mem_labelWords
  refine ⟨fun context => ?_, ?_⟩
  · obtain ⟨cut, cuts⟩ := exists_cuts nonempty context.toList
    have mark (opening closing : String) :
        mark context label opening closing = String.ofList (written opening.toList closing.toList cut) :=
      congrArg String.ofList (cuts.written_eq nonempty opening.toList closing.toList)
    exact ⟨cut, ⟨cuts.plain_eq, mark⟩, fun _ _ _ => cuts.standsFirst nonempty,
      fun w place => cuts.encloses_iff nonempty⟩
  · rw [noneHidden_iff nonempty]
    constructor
    · intro h text
      have all := h (String.ofList text)
      rwa [String.toList_ofList] at all
    · exact fun h context => h context.toList

/-- "is" comes before "island" in the label, so that no more than two letters of the island are marked. -/
theorem mark_is_island :
    mark "island" "is island" "[" "]" = "[is]land" ∧
      StandsFree (labelWords "is island".toList) "island".toList "island".toList 0 ∧
      ¬∃ cut, Shows cut "island" "is island" ∧ Encloses cut 0 "island".toList.length := by
  have marked : mark "island" "is island" "[" "]" = "[is]land" := by decide +kernel
  refine ⟨marked, ⟨by decide, standsAt_self _, fun _ _ _ before => absurd before (Nat.not_lt_zero _)⟩, ?_⟩
  rintro ⟨cut, shows, before, x, after, rfl, hx, start, stop⟩
  -- the stretch is the whole context
  have parts : plain before ++ (x.text ++ plain after) = "island".toList := by
    rw [← plain_cons, ← plain_append]
    exact shows.plain
  have first : plain before = [] := List.length_eq_zero_iff.1 (Nat.le_zero.1 start)
  rw [first, List.length_nil, Nat.zero_add, Nat.zero_add] at stop
  rw [first, List.nil_append] at parts
  have inFront : x.text <+: "island".toList := ⟨_, parts⟩
  have whole : x.text = "island".toList := inFront.eq_of_length_le stop
  -- so the island as a whole is written between the marks
  have between : "[island]".toList <:+: "[is]land".toList := by
    have text := congrArg String.toList ((shows.mark "[" "]").symm.trans marked)
    rw [String.toList_ofList, written, List.flatMap_append, List.flatMap_cons, Stretch.written, if_pos hx,
      whole] at text
    exact ⟨_, _, (List.append_assoc _ _ _).trans text⟩
  revert between
  decide

end Concordance.Output
