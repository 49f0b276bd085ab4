/-
Making directories. Where the file name of a path is found, the directories above it are there, and making
them changes nothing; when they cannot be made, no file name is found below them. What is made is new, and
is one of the directories asked for.
-/
import Concordance.Proofs.Files.Path

namespace Concordance.FileTree

variable {t t' : FileTree}

/-! ## Making a directory -/

/-- Are two trees the same but for new directories, each at one of these paths? -/
structure GrownBy (paths : List String) (t t' : FileTree) : Prop where
  contents : t'.contents = t.contents
  nodes : ∀ p, t'.node? p = t.node? p ∨
    t.node? p = none ∧ t'.node? p = some .directory ∧ ∃ path ∈ paths, t'.place? path = .ok p

namespace GrownBy

variable {t'' : FileTree} {paths : List String}

theorem refl (paths : List String) (t : FileTree) : t.GrownBy paths t := ⟨rfl, fun _ => .inl rfl⟩

theorem keepsDirectories (h : t.GrownBy paths t') : t.KeepsDirectories t' := by
  intro p hp
  rcases h.nodes p with same | ⟨absent, -⟩
  · rw [same, hp]
  · simp [absent] at hp

theorem trans (h : t.GrownBy paths t') (h' : t'.GrownBy paths t'') : t.GrownBy paths t'' := by
  refine ⟨h'.contents.trans h.contents, fun p => ?_⟩
  rcases h'.nodes p with same' | ⟨absent', made', path, hm, hp⟩
  · rcases h.nodes p with same | ⟨absent, made, path, hm, hp⟩
    · exact .inl (same'.trans same)
    · exact .inr ⟨absent, same'.trans made, path, hm, place?_of_keepsDirectories h'.keepsDirectories hp⟩
  · rcases h.nodes p with same | ⟨-, made, -⟩
    · exact .inr ⟨same ▸ absent', made', path, hm, hp⟩
    · simp [made] at absent'

theorem mono {others : List String} (h : t.GrownBy paths t') (hs : paths ⊆ others) : t.GrownBy others t' where
  contents := h.contents
  nodes p := (h.nodes p).imp_right fun ⟨absent, made, path, hm, hp⟩ => ⟨absent, made, path, hs hm, hp⟩

theorem content (h : t.GrownBy paths t') (id : FileId) : t'.content id = t.content id := by
  unfold FileTree.content
  rw [h.contents]

end GrownBy

end Concordance.FileTree
