/-
Where paths lead. A path is cut into names at its slashes, and its names are followed one by one; what is
added to a path without a slash is added to the last of them. So whoever finds such a path has passed every
directory that is spelled of the first names of it, and two paths that differ in what they add to a third are
never at one place.
-/
import Concordance.Proofs.Files.Frame
import Concordance.Proofs.Text.Pieces
import Mathlib.Data.String.Basic

namespace Concordance

open Text

namespace FileTree

variable {t : FileTree}

/-! ## Walking -/

theorem walk_append : ∀ (xs ys : List String) (p : Place),
    t.walk p (xs ++ ys) = (t.walk p xs).bind fun q => t.walk q ys
  | [], _, _ => rfl
  | name :: xs, ys, p => by
    have ih := walk_append xs ys
    simp only [List.cons_append, walk]
    split
    · rfl
    · rfl
    · split
      · exact ih p
      · split
        · exact ih p.above
        · split
          · rfl
          · exact ih _

theorem walk_append_eq_ok {xs ys : List String} {p q : Place} :
    t.walk p (xs ++ ys) = .ok q ↔ ∃ r, t.walk p xs = .ok r ∧ t.walk r ys = .ok q := by
  rw [walk_append]
  cases t.walk p xs <;> simp [Except.bind]

/-- Whoever goes on is in a directory. -/
theorem directory_of_walk {names : List String} (hne : names ≠ []) {p q : Place} (h : t.walk p names = .ok q) :
    t.node? p = some .directory := by
  cases names with
  | nil => exact absurd rfl hne
  | cons name rest =>
    unfold walk at h
    split at h
    · cases h
    · cases h
    · assumption

/-- Names that stay where they are. -/
def Stays (name : String) : Prop := name = "" ∨ name = "."

instance (name : String) : Decidable (Stays name) := inferInstanceAs (Decidable (_ ∨ _))

/-- A name that goes down leads to the place with the name behind it. -/
theorem walk_singleton_eq_ok {name : String} (hs : ¬ Stays name) (hu : name ≠ "..") {p q : Place} :
    t.walk p [name] = .ok q ↔ t.node? p = some .directory ∧ name.utf8ByteSize ≤ maxNameSize ∧ q = p ++ [name] := by
  have away : (decide (name = "") || decide (name = ".")) = false := by simpa [Stays] using hs
  simp only [walk, away, hu, if_false, Bool.false_eq_true]
  cases t.node? p with
  | none => simp
  | some n =>
    cases n with
    | file id => simp
    | directory =>
      dsimp only
      split
      · rename_i long
        simp [Nat.not_le_of_lt long]
      · rename_i short
        simp [Nat.le_of_not_lt short, eq_comm]

/-- A name stays, goes up or goes down. -/
theorem walk_singleton_cases {name : String} {p q : Place} (h : t.walk p [name] = .ok q) :
    q = p ∨ q = p.above ∨ q = p ++ [name] := by
  have hp := directory_of_walk (List.cons_ne_nil name []) h
  simp only [walk, hp] at h
  split at h
  · exact .inl (Except.ok.inj h).symm
  · split at h
    · exact .inr (.inl (Except.ok.inj h).symm)
    · split at h
      · cases h
      · exact .inr (.inr (Except.ok.inj h).symm)

theorem place?_eq_ok {path : String} {p : Place} :
    t.place? path = .ok p ↔ checkPath path = .ok () ∧ t.walk (route path).1 (route path).2 = .ok p := by
  unfold place?
  cases checkPath path <;> simp [bind, Except.bind]

theorem route_fst (path : String) : (route path).1 = if Path.isAbsolute path then Place.root else [] := by
  unfold route
  dsimp only
  split <;> rfl

theorem route_snd (path : String) : (route path).2 = (Text.pieces (· == '/') path.toList).map String.ofList := by
  unfold route
  dsimp only
  split <;> rfl

end FileTree

/-- Going up is no way down. -/
theorem Place.above_ne_append (p : Place) {name : String} (h : name ≠ "..") : p.above ≠ p ++ [name] := by
  intro he
  unfold above at he
  split at he
  · rename_i root
    simp [root, Place.root] at he
  · split at he
    · exact h (List.singleton_inj.1 (List.append_cancel_left he)).symm
    · have length := congrArg List.length he
      simp at length

/-! ## Names -/

namespace Path

/-- A text without a slash that is added to a path ends up behind its last piece. -/
theorem exists_pieces_sibling (path : String) :
    ∃ init last, Text.pieces (· == '/') path.toList = init ++ [last] ∧ ∀ {added : String}, '/' ∉ added.toList →
      Text.pieces (· == '/') (sibling path added).toList = init ++ [last ++ added.toList] := by
  let slash : Char → Bool := fun c => c == '/'
  obtain ⟨init, last, cut⟩ := exists_pieces_append slash path.toList
  refine ⟨init, last, by simpa using @cut [] [] [] rfl, fun {added} hs => ?_⟩
  rw [sibling, String.toList_append]
  refine cut (pieces_of_none slash fun c hc => ?_)
  rw [beq_eq_false_iff_ne]
  rintro rfl
  exact hs hc

theorem isAbsolute_sibling (path : String) {added : String} (hs : '/' ∉ added.toList) :
    isAbsolute (sibling path added) = isAbsolute path := by
  unfold isAbsolute sibling
  rw [String.toList_append]
  cases path.toList with
  | cons c rest => rfl
  | nil =>
    cases ha : added.toList with
    | nil => rfl
    | cons c rest =>
      have ne : c ≠ '/' := by
        rintro rfl
        exact hs (by simp [ha])
      simp [ne]

end Path

/-! ## The way to a path -/

namespace FileTree

variable {t : FileTree}

/-- Whoever finds a path that something is added to has come to where its last name is looked for. -/
theorem exists_walk_of_sibling (path : String) :
    ∃ init last, Text.pieces (· == '/') path.toList = init ++ [last] ∧
      ∀ {t : FileTree} {added : String} {p : Place}, '/' ∉ added.toList → t.place? (Path.sibling path added) = .ok p →
        ∃ r, t.walk (route path).1 (init.map String.ofList) = .ok r ∧
          t.walk r [String.ofList (last ++ added.toList)] = .ok p := by
  obtain ⟨init, last, hpath, hadded⟩ := Path.exists_pieces_sibling path
  refine ⟨init, last, hpath, fun {t added p} hs h => ?_⟩
  obtain ⟨-, hw⟩ := place?_eq_ok.1 h
  rw [route_fst, route_snd, Path.isAbsolute_sibling path hs, hadded hs, ← route_fst, List.map_append] at hw
  exact walk_append_eq_ok.1 hw

end FileTree

/-- Paths are apart that add different texts without a slash to a path, one of them of three characters or more. -/
theorem apart_of_ne (path : String) {a b : String} (hne : a ≠ b) (ha : '/' ∉ a.toList) (hb : '/' ∉ b.toList)
    (hl : 3 ≤ b.toList.length) : Apart (Path.sibling path a) (Path.sibling path b) := by
  intro t p hpa hpb
  obtain ⟨init, last, -, passed⟩ := FileTree.exists_walk_of_sibling path
  obtain ⟨r, hr, hlast⟩ := passed ha hpa
  obtain ⟨r', hr', hlast'⟩ := passed hb hpb
  obtain rfl : r = r' := Except.ok.inj (hr.symm.trans hr')
  -- the longer name goes down
  have long : ∀ short : String, short.toList.length < 3 → String.ofList (last ++ b.toList) ≠ short := by
    rintro short hshort rfl
    simp at hshort
    omega
  have goes : ¬ FileTree.Stays (String.ofList (last ++ b.toList)) :=
    fun h => h.elim (long "" (by decide)) (long "." (by decide))
  obtain ⟨-, -, rfl⟩ := (FileTree.walk_singleton_eq_ok goes (long ".." (by decide))).1 hlast'
  rcases FileTree.walk_singleton_cases hlast with stays | up | down
  · simp at stays
  · exact Place.above_ne_append r (long ".." (by decide)) up.symm
  · have same := String.ofList_injective (List.singleton_inj.1 (List.append_cancel_left down))
    exact hne (String.toList_inj.1 (List.append_cancel_left same)).symm

end Concordance
