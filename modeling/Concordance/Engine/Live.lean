/-
A backend that stays open while files change. A scanner has its documents and needs no file. An index stays
with the file it was opened as, which may have lost its place, and looks at it for each question that needs
its rows: the question fails if the file is no index any more or if a writer has left a journal beside it.
-/
import Concordance.Engine.Evaluate
import Concordance.Engine.Open

namespace Concordance

/-! ## What a question needs -/

/-- What a question needs of the file of an index. -/
inductive Need where
  | nothing
  /-- The rows that match an expression. Nothing matches in a file that holds nothing. -/
  | matching
  /-- The rows by another way. A file that holds nothing has none. -/
  | rows
deriving DecidableEq, Repr, Inhabited

namespace Need

/-- An empty expression matches nothing, wherever it is asked. -/
def ofExpression (expression : List Char) : Need := if expression.isEmpty then nothing else matching

def ofTerm (t : Term) : Need := ofExpression (Index.termExpr t)

def ofTerms (terms : List Term) : Combinator → Need
  | .or => ofExpression (Index.anyExpr terms)
  | _ => ofExpression (Index.allExpr terms)

/-- A pair needs rows whatever its terms. The exclusions only matter if some row has matched. -/
def ofPlan (p : Plan) : Need :=
  if !p.proximity.isEmpty then matching
  else
    match p.combinator, p.primary with
    | _, [] => nothing
    | .single, [t] => ofTerm t
    | combinator, terms => ofTerms terms combinator

/-- Only contexts without a page are looked up. -/
def ofHits (hits : List Hit) : Need :=
  if hits.all fun h => h.contexts.all fun c => c.page.isSome then nothing else rows

end Need

/-! ## Open backends -/

/-- The file of an index that is open. -/
structure Index.OpenFile where
  path : String
  id : FileId
  /-- Does it read a log too? Then it heeds no other companions. -/
  logged : Bool
  /-- Has it been found to hold nothing? Then its tables are forgotten, whatever it holds later. -/
  emptied : Bool
deriving DecidableEq, Repr, Inhabited

/-- Settles what stands beside the file for a reader that has it open. -/
def Index.OpenFile.settle (f : OpenFile) (content : FileContent) : StateM Disk (Except Error Bool) :=
  if f.logged then pure (.ok true) else (Index.settle f.path content).run

/-- A backend that is open, as it was when it was opened, and if it is an index, its file. -/
structure Live where
  backend : Backend
  file : Option Index.OpenFile
deriving DecidableEq, Repr, Inhabited

namespace Live

def ofScanner (s : Scanner) : Live := ⟨.memory s, none⟩

/-- The index at a path, opened just now. It reads a log if there is one. -/
def ofIndex (ix : Index) (path : String) : ExceptT Error (StateM Disk) Live := do
  let path := Index.resolve path
  let id ← Index.storageTask (Disk.perform fun t => (t.file? path, t))
  let logged := (← Index.companion? (Index.logPath path)).isSome
  return ⟨.index ix, some ⟨path, id, logged, false⟩⟩

/-- Opens the backend that is asked for. -/
def openKind (kind : BackendKind) (c : Config) (options : Scan.Options) : ExceptT Error (StateM Disk) Live := do
  match ← Backend.openKind kind c options with
  | .memory s => return ofScanner s
  | .index ix => ofIndex ix c.indexPath

/-- The answer of an index without tables. -/
def askEmptied {α : Type} (need : Need) (answer : Backend → α) : Except Error α :=
  match need with
  | .rows => .error (.storage .noTables)
  | _ => .ok (answer (.index (.ofRows .empty)))

/-- Asks the backend. It answers as it stands now, and keeps what it has found out about its file. -/
def ask {α : Type} (l : Live) (need : Need) (answer : Backend → α) : StateM Disk (Except Error α × Live) := do
  match l.file, need with
  | none, _ | _, .nothing => return (.ok (answer l.backend), l)
  | some f, need =>
    let content := (← get).tree.content f.id
    match ← f.settle content with
    | .error e => return (if f.emptied then askEmptied need answer else .error e, l)
    | .ok logged =>
      let emptied := f.emptied || (Index.isVoid content && !logged)
      let result :=
        if emptied then askEmptied need answer
        else
          match Index.rowsOf content with
          | .ok _ => .ok (answer l.backend)
          | .error e => .error (.storage e)
      return (result, { l with file := some { f with logged, emptied } })

/-- Answers a request. One whose query is refused asks nothing of the backend. -/
def search (l : Live) (r : Request) : StateM Disk (Except Error Response × Live) :=
  match r.plan with
  | .error w => return (.error (.ambiguous w), l)
  | .ok plan => l.ask (.ofPlan plan) fun b => b.searchPlan plan r

end Live

end Concordance
