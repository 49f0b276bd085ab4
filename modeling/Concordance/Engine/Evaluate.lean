/-
Answering requests. The documents of the primary terms, less those of the exclusions, and with those of the
pairs added, are filtered, put in order and cut into pages.
-/
import Concordance.Engine.Backend
import Concordance.Engine.Request
import Concordance.Query.Translate

namespace Concordance

/-- The plan of a request. One that is strict has none if its query is ambiguous, but the first ambiguity. -/
def Request.plan (r : Request) : Except Warning Plan :=
  if r.strict then Query.translateStrict r.query else .ok (Query.translate r.query)

namespace Backend

/-- The hits for the primary terms of a plan. -/
def primaryHits (b : Backend) (p : Plan) : List Hit :=
  match p.combinator, p.primary with
  | _, [] => []
  | .single, [t] => b.search t
  | combinator, terms => b.searchMultiple terms combinator

/-- The filenames of the documents that hold some of the terms. -/
def filesHolding (b : Backend) (terms : List Term) : List String :=
  terms.flatMap fun t => (b.search t).map (·.filename)

/--
The hits for a plan, each filename once if a pair is asked for. Exclusions are searched for only if there is something
to leave out, and pairs are not subject to them.
-/
def evaluate (b : Backend) (p : Plan) : List Hit :=
  let hits := b.primaryHits p
  let kept :=
    if !hits.isEmpty && !p.exclusions.isEmpty then exclude hits (b.filesHolding p.exclusions) else hits
  match p.proximity with
  | [] => kept
  | pairs =>
    (pairs.foldl (fun m pair => m.addAll (b.searchProximity pair.first pair.second pair.maxWords))
      (Merger.ofHits kept)).toList

/-- The hits that a request admits, in its order. -/
def matching (b : Backend) (p : Plan) (r : Request) : List Hit :=
  r.sort.sort ((b.evaluate p).filter r.admits)

/-- The hits of one page. -/
def pageOf (hits : List Hit) (page perPage : Nat) : List Hit := (hits.drop ((page - 1) * perPage)).take perPage

/-- Answers a request with a plan given. There is no page 0 and no page without room: both count as 1. -/
def searchPlan (b : Backend) (p : Plan) (r : Request) : Response :=
  let hits := b.matching p r
  let page := max r.page 1
  let perPage := max r.perPage 1
  { results := b.locate <|
      (pageOf hits page perPage).map fun h => { h with contexts := h.contexts.take r.maxContexts }
    total := hits.length
    totalMatches := totalOf (·.matchCount) hits
    page, perPage
    warnings := p.warnings }

/-- Answers a request, if it has a plan. -/
def answer (b : Backend) (r : Request) : Except Warning Response := do return b.searchPlan (← r.plan) r

end Backend

end Concordance
