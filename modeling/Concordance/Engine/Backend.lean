/-
What a search engine searches with: documents to scan, or an index. Both answer the same questions.
-/
import Concordance.Index.Locate
import Concordance.Scan.Scanner

namespace Concordance

inductive Backend where
  | memory (scanner : Scanner)
  | index (index : Index)
deriving DecidableEq, Repr, Inhabited

namespace Backend

def name : Backend → String
  | memory _ => "memory"
  | index _ => "index"

/-- The documents that hold a term. -/
def search : Backend → Term → List Hit
  | memory s => s.search
  | index ix => ix.search

/-- The documents that hold some of the terms, or all of them. -/
def searchMultiple : Backend → List Term → Combinator → List Hit
  | memory s => s.searchMultiple
  | index ix => ix.searchMultiple

/-- The documents that hold two terms close together. -/
def searchProximity : Backend → Term → Term → UInt32 → List Hit
  | memory s => s.searchProximity
  | index ix => ix.searchProximity

def stats : Backend → Stats
  | memory s => s.stats
  | index ix => ix.stats

/-- Finds the positions and pages that a search left open. A scan leaves none open. -/
def locate : Backend → List Hit → List Hit
  | memory _ => id
  | index ix => ix.locate

end Backend

/-! ## Choosing a backend -/

/-- Which backend a user asks for. -/
inductive BackendKind where
  /-- The index if there is one, else the documents. -/
  | auto
  | memory
  | index
deriving DecidableEq, Repr, Inhabited

namespace BackendKind

def name : BackendKind → String
  | auto => "auto"
  | memory => "memory"
  | index => "index"

/-- Reads the name of a backend in any ASCII case, or says why it is none. -/
def ofText (s : String) : Except String BackendKind :=
  let lowered := String.ofList (s.toList.map Char.toLower)
  if lowered = "auto" then .ok auto
  else if lowered = "memory" || lowered = "mem" then .ok memory
  else if lowered = "index" || lowered = "fts" || lowered = "sqlite" then .ok index
  else .error ("unknown backend '" ++ lowered ++ "' (expected auto, memory or index)")

end BackendKind

end Concordance
