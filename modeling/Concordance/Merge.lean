/-
Merging hits by filename. A filename occurs at most once in a merged list: its first hit fixes its place
and its document, and later hits for it add their matches.
-/
import Concordance.Document
import Std.Data.HashMap

namespace Concordance

/-- Hits merged so far, with the slot of each filename. -/
structure Merger where
  hits : Array Hit
  slots : Std.HashMap String Nat

namespace Merger

def empty : Merger := ⟨#[], ∅⟩

/-- Merges one hit. -/
def add (m : Merger) (h : Hit) : Merger :=
  match m.slots[h.filename]? with
  | some slot => { m with hits := m.hits.modify slot (·.absorb h) }
  | none => ⟨m.hits.push h, m.slots.insert h.filename m.hits.size⟩

def addAll (m : Merger) (hits : List Hit) : Merger := hits.foldl add m

def ofHits (hits : List Hit) : Merger := empty.addAll hits

/-- The merged hits, in the order in which their filenames first came. -/
def toList (m : Merger) : List Hit := m.hits.toList

end Merger

/-- Does some hit have the filename? -/
def hasFile (hits : List Hit) (filename : String) : Bool := hits.any (·.filename = filename)

/-- The hits whose filename all other lists have too. -/
def intersect (hits : List Hit) (others : List (List Hit)) : List Hit :=
  hits.filter fun h => others.all (hasFile · h.filename)

/-- The hits whose filename is not among those excluded. -/
def exclude (hits : List Hit) (excluded : List String) : List Hit :=
  hits.filter fun h => !excluded.contains h.filename

end Concordance
