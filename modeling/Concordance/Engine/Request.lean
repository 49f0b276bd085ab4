/-
Requests and responses: a query with filters, an order and a page, and the hits of that page.
-/
import Concordance.Config
import Concordance.Document
import Concordance.Query.Plan

namespace Concordance

inductive SortOrder where
  | relevance
  | filename
  | dataset
deriving DecidableEq, Repr, Inhabited

namespace SortOrder

def name : SortOrder → String
  | relevance => "relevance"
  | filename => "filename"
  | dataset => "dataset"

/-- Reads the name of an order in any ASCII case, or says why it is none. -/
def ofText (s : String) : Except String SortOrder :=
  let lowered := String.ofList (s.toList.map Char.toLower)
  if lowered = "relevance" then .ok relevance
  else if lowered = "filename" then .ok filename
  else if lowered = "dataset" then .ok dataset
  else .error ("unknown sort '" ++ lowered ++ "' (expected relevance, filename or dataset)")

/-- May the first hit stand before the second? More matches first, else by name in the order of code points. -/
def le : SortOrder → Hit → Hit → Bool
  | relevance, a, b => b.matchCount ≤ a.matchCount
  | filename, a, b => a.filename ≤ b.filename
  | dataset, a, b => a.dataset < b.dataset || (a.dataset = b.dataset && a.filename ≤ b.filename)

/-- The hits in order; those that the order does not tell apart stay as they are. -/
def sort (order : SortOrder) (hits : List Hit) : List Hit := hits.mergeSort order.le

end SortOrder

/-- What to search for, which documents to admit, and which part of the result to show. -/
structure Request where
  query : String
  /-- The page, counted from 1. -/
  page : Nat
  perPage : Nat
  dataset : Option UInt32
  minPages : UInt32
  maxPages : Option UInt32
  sort : SortOrder
  /-- The most contexts of a hit. -/
  maxContexts : Nat
  /-- Is a query that could mean several things an error? -/
  strict : Bool
deriving DecidableEq, Repr, Inhabited

namespace Request

/-- The request for a query without further wishes. -/
def ofQuery (query : String) : Request :=
  { query, page := 1, perPage := Config.defaultPerPage, dataset := none, minPages := 0, maxPages := none
    sort := .relevance, maxContexts := Config.defaultMaxContexts, strict := false }

/-- Does the request admit the document of a hit? -/
def admits (r : Request) (h : Hit) : Bool :=
  r.dataset.all (h.dataset == ·) && r.minPages ≤ h.pages && r.maxPages.all (h.pages ≤ ·)

end Request

/-- A page of hits, with the number of hits and of matches on all pages. -/
structure Response where
  results : List Hit
  total : Nat
  totalMatches : Nat
  page : Nat
  perPage : Nat
  warnings : List Warning
deriving DecidableEq, Repr, Inhabited

end Concordance
