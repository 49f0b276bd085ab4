/-
One page for one position. A build stores a document's page table as text, or leaves it out if it has no entries,
and a citation reads it back; a scan has the document itself. Both ways give the same page for every position, and
none exactly if the document has no table with entries.
-/
import Concordance.Proofs.Corpus.Records
import Concordance.Proofs.Index.Citation
import Concordance.Proofs.Index.Offsets
import Concordance.Proofs.Page.Lookup

namespace Concordance

/-- A citation overlooks a table without entries. -/
theorem citedPage?_filter (offsets : Option (List Nat)) (position : Nat) (pages : UInt32) :
    citedPage? (offsets.filter (!·.isEmpty)) position pages = citedPage? offsets position pages := by
  unfold citedPage?
  rw [Option.filter_filter]
  simp only [Bool.and_self]

theorem citedPage?_eq_none_iff {offsets : Option (List Nat)} {position : Nat} {pages : UInt32} :
    citedPage? offsets position pages = none ↔ offsets = none ∨ offsets = some [] := by
  match offsets with
  | none => simp [citedPage?]
  | some [] => simp [citedPage?]
  | some (o :: rest) => simp [citedPage?]

/-- A page that is cited is a number of 32 bits, unless no number of pages is stated and the table is longer. -/
theorem citedPage?_lt_size {offsets : Option (List Nat)} {pages : UInt32}
    (h : 0 < pages ∨ ∀ table ∈ offsets, table.length < UInt32.size) (position : Nat) :
    ∀ p ∈ citedPage? offsets position pages, p < UInt32.size := by
  intro p hp
  obtain ⟨table, kept, rfl⟩ := Option.map_eq_some_iff.1 hp
  have ht : table ∈ offsets := (Option.filter_eq_some_iff.1 kept).1
  exact Page.pageAt_lt_size (h.imp_right fun short => short table ht) position

namespace Index

/-- Starts that lie at most one past a text are numbers of 64 bits if the text's positions are. -/
theorem offsets_lt_of_fits {offsets : List Nat} {length : Nat} (hf : Page.Fits offsets length)
    (hsize : length + 1 < UInt64.size) : ∀ o ∈ offsets, o < UInt64.size :=
  fun _ ho => (hf.le ho).trans_lt hsize

/-- The row of a document whose table fits its text has the document's pages. -/
theorem pageAt?_ofDocument {d : Document}
    (hf : ∀ offsets, d.pageOffsets = some offsets → Page.Fits offsets d.text.length)
    (hsize : d.text.length + 1 < UInt64.size) (position : Nat) :
    citedPage? (Row.ofDocument d).offsets? position d.pages = d.pageAt? position := by
  have stored : (Row.ofDocument d).offsets? = d.pageOffsets.filter (!·.isEmpty) :=
    offsets?_ofDocument fun offsets ho => offsets_lt_of_fits (hf offsets ho) hsize
  rw [stored, citedPage?_filter]
  rfl

theorem pageOffsets_ofDocument_eq_none_iff {d : Document} :
    (Row.ofDocument d).pageOffsets = none ↔ d.pageOffsets = none ∨ d.pageOffsets = some [] := by
  show (d.pageOffsets.filter (!·.isEmpty)).map offsetsText = none ↔ _
  match d.pageOffsets with
  | none => simp
  | some [] => simp
  | some (o :: rest) => simp

/-- The stored row of a document is the one with its id. -/
theorem Rows.Stores.eq_ofDocument_iff {rows : Rows} {documents : List Document} (hs : rows.Stores documents)
    {d : Document} (hd : d ∈ documents) {r : Row} : r ∈ rows.list ∧ r.id = d.id ↔ r = Row.ofDocument d := by
  have stored : Row.ofDocument d ∈ rows.list := hs.perm.mem_iff.2 (List.mem_map_of_mem hd)
  constructor
  · rintro ⟨hr, hid⟩
    exact List.inj_on_of_nodup_map hs.ordered.nodup hr stored hid
  · rintro rfl
    exact ⟨stored, rfl⟩

/--
On an index built from a corpus, with batches of any size, the row of each document cites every position on the page
that a scan cites it on. A scan cites no page exactly if the document has no table or one without entries, and then
none is stored; and a snippet without a page gets the page that a scan has where the snippet is found. Pages are
numbers of 32 bits, if the number of pages is stated or the table is no longer than such numbers reach.
-/
theorem row_cites_as_scan {c : Corpus} {batchSize : Nat} {ix : Index} (hc : c.Loaded) (hix : ix.BuiltFrom c batchSize)
    {d : Document} (hd : d ∈ c.documents) (hsize : d.text.length + 1 < UInt64.size) :
    ∃ r : Row, (∀ s, s ∈ ix.entries.map (·.row) ∧ s.id = d.id ↔ s = r) ∧ r.text = d.text ∧
      (∀ position, citedPage? r.offsets? position r.pages = d.pageAt? position) ∧
      (∀ position, d.pageAt? position = none ↔ d.pageOffsets = none ∨ d.pageOffsets = some []) ∧
      ((0 < d.pages ∨ ∀ table ∈ d.pageOffsets, table.length < UInt32.size) →
        ∀ position, ∀ p ∈ d.pageAt? position, p < UInt32.size) ∧
      (r.pageOffsets = none ↔ d.pageOffsets = none ∨ d.pageOffsets = some []) ∧
      ∀ k : Context, k.page = none →
        locateContext r r.pages k =
          k.placed ((locate? d.text.toList k).map fun position => (position, d.pageAt? position)) := by
  obtain ⟨rows, rfl, hs⟩ := hix.stores
  have same : (Index.ofRows rows).entries.map (·.row) = rows.list := by
    simp only [Index.ofRows, List.map_map]
    exact List.map_id _
  have pages := pageAt?_ofDocument (fun offsets ho => hc.inPlace.fits hd ho) hsize
  refine ⟨Row.ofDocument d, fun s => ?_, rfl, pages, fun _ => citedPage?_eq_none_iff, citedPage?_lt_size,
    pageOffsets_ofDocument_eq_none_iff, fun k hk => ?_⟩
  · rw [same]
    exact hs.eq_ofDocument_iff hd
  · have cited : d.cite? d.pages k = (locate? d.text.toList k).map fun position => (position, d.pageAt? position) := by
      unfold Document.cite?
      congr 1
      exact funext fun position => congrArg (Prod.mk position) (pages position)
    show locateContext (Row.ofDocument d) d.pages k = _
    rw [locateContext_ofDocument, hk, cited]
    rfl

/-- A log of two pages whose number of pages is not known, and a memo whose table has no entries. -/
def pierLogs : List Document :=
  [⟨1, 1, "a.pdf", "a.pdf", 0, "log\x0cend", some [0, 4]⟩, ⟨2, 1, "b.pdf", "b.pdf", 3, "memo", some []⟩]

/-- The last word of the log is on its second page, and the memo cites no page. -/
theorem row_cites_as_scan_pierLogs :
    ∃ ix : Index, ix.BuiltFrom (.ofDocuments pierLogs) 1 ∧
      (∃ r ∈ ix.entries.map (·.row), r.id = 1 ∧ citedPage? r.offsets? 5 r.pages = some 2) ∧
      ∃ r ∈ ix.entries.map (·.row), r.id = 2 ∧ r.pageOffsets = none ∧ citedPage? r.offsets? 0 r.pages = none := by
  have documents : (Corpus.ofDocuments pierLogs).documents = pierLogs := by decide +kernel
  have built : (Index.ofRows ⟨pierLogs.map Row.ofDocument⟩).BuiltFrom (.ofDocuments pierLogs) 1 :=
    builtFrom_iff.2 ⟨_, rfl, by decide, documents ▸ .refl _⟩
  have loaded : (Corpus.ofDocuments pierLogs).Loaded := .documents pierLogs
  have log : pierLogs[0] ∈ (Corpus.ofDocuments pierLogs).documents := by rw [documents]; decide
  have memo : pierLogs[1] ∈ (Corpus.ofDocuments pierLogs).documents := by rw [documents]; decide
  obtain ⟨r, row, -, cites, -⟩ := row_cites_as_scan loaded built log (by decide +kernel)
  obtain ⟨r', row', -, cites', none, -, stored, -⟩ := row_cites_as_scan loaded built memo (by decide +kernel)
  obtain ⟨hr, hid⟩ := (row r).2 rfl
  obtain ⟨hr', hid'⟩ := (row' r').2 rfl
  refine ⟨_, built, ⟨r, hr, hid, ?_⟩, r', hr', hid', stored.2 (.inr rfl), ?_⟩
  · rw [cites]
    decide +kernel
  · rw [cites']
    exact (none 0).2 (.inr rfl)

end Index

end Concordance
