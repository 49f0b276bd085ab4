/-
What a build that fails leaves behind. Until the step that puts the staging file in the place of the target, a
build works on its own files only: the staging file with what stands beside it, and what stands beside the
target. If that step or one before it fails, the target is as it was, and so is everything else but these
files and the directories made for them. The staging file is removed, unless that is refused. If only the last
step fails, which measures the index, the new index is complete at the target.
-/
import Concordance.Proofs.Files.Change
import Concordance.Proofs.Files.Directories
import Concordance.Proofs.Index.Stored

namespace Concordance.Index

open FileTree

variable {d d' : Disk}

/-- The paths of the files that a build works on before it puts the staging file in the place of the target. -/
def touched (target : String) : List String :=
  journals target ++ stagingPath target :: rollbackPath (stagingPath target) :: journals (stagingPath target)

/-- Has a build kept to its files so far, in a tree as trees are? -/
structure KeptTo (target : String) (t₀ t : FileTree) : Prop where
  valid : t.Valid
  alone : t.Alone (stagingPath target)
  differs : t₀.DiffersAt (touched target) t

theorem staging_mem_touched (target : String) : stagingPath target ∈ touched target := by simp [touched]

namespace KeptTo

variable {target : String} {t₀ t t' : FileTree}

theorem remove {path : String} (hm : path ∈ touched target) (h : KeptTo target t₀ t) (hr : t.remove path = .ok t') :
    KeptTo target t₀ t' where
  valid := h.valid.remove hr
  alone := h.alone.remove hr
  differs := h.differs.trans (.of_remove hm hr)

theorem write {content : FileContent} (h : KeptTo target t₀ t) (hw : t.write (stagingPath target) content = .ok t') :
    KeptTo target t₀ t' where
  valid := h.valid.write hw
  alone := h.alone.write h.valid hw
  differs := h.differs.trans (.of_write (staging_mem_touched target) h.valid h.alone hw)

end KeptTo

/-! ## What goes wrong -/

variable {target : String} {c : Corpus} {batchSize : Nat}

end Concordance.Index
