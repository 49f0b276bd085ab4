/-
Which document the index cites. A hit is looked up by its filename, and of the rows with that filename the
one with the least id answers. So a document is cited as if it were alone in the index exactly if the first
document of its filename places every snippet where it does itself, on the same page.
-/
import Concordance.Proofs.Index.HitByHit
import Concordance.Proofs.Index.Stored

namespace Concordance

open Index

/-- Is a hit one for a document? -/
structure Hit.IsOf (h : Hit) (d : Document) : Prop where
  dataset : h.dataset = d.dataset
  filename : h.filename = d.filename
  filepath : h.filepath = d.filepath
  pages : h.pages = d.pages

/-- Has a document the least id among the documents of its filename? -/
def Document.IsFirstIn (d : Document) (documents : List Document) : Prop :=
  d ∈ documents ∧ ∀ e ∈ documents, e.filename = d.filename → d.id ≤ e.id

/-- Where the stored text of a document has a snippet, and on which of so many pages, as far as it is known. -/
def Document.cite? (d : Document) (pages : UInt32) (k : Context) : Option (Nat × Option Nat) :=
  (locate? d.text.toList k).map fun position => (position, citedPage? (Row.ofDocument d).offsets? position pages)

/-! ## Looking up -/

theorem rowOf?_ofRows (rows : Rows) (f : String) :
    (Index.ofRows rows).rowOf? f = rows.list.find? (·.filename = f) := by
  have same : ((Index.ofRows rows).entries.map (·.row)) = rows.list := by
    simp only [Index.ofRows, List.map_map]
    exact List.map_id _
  rw [rowOf?, same]

/-- In rows in the order of their ids, the first of a filename has the least id. -/
theorem rowOf?_of_isFirstIn {rows : Rows} {documents : List Document} (hs : rows.Stores documents) {d : Document}
    (hd : d.IsFirstIn documents) : (Index.ofRows rows).rowOf? d.filename = some (Row.ofDocument d) := by
  have mem : ∀ r, r ∈ rows.list ↔ ∃ e ∈ documents, Row.ofDocument e = r :=
    fun r => hs.perm.mem_iff.trans List.mem_map
  obtain ⟨before, after, hl⟩ := List.append_of_mem ((mem _).2 ⟨d, hd.1, rfl⟩)
  rw [rowOf?_ofRows, List.find?_eq_some_iff_append]
  refine ⟨by simp [Row.ofDocument], before, after, hl, fun r hr => ?_⟩
  -- a row before it has a smaller id
  have less : r.id < (Row.ofDocument d).id := by
    have ordered := hs.ordered
    rw [Rows.Ordered, hl] at ordered
    exact (List.pairwise_append.1 ordered).2.2 r hr _ List.mem_cons_self
  obtain ⟨e, he, rfl⟩ := (mem r).1 (by rw [hl]; exact List.mem_append_left _ hr)
  rw [Bool.not_eq_true', decide_eq_false_iff_not]
  intro same
  exact absurd less (UInt32.not_lt.2 (hd.2 e he same))

/-- Some document of each filename comes first. -/
theorem exists_isFirstIn {documents : List Document} {d : Document} (hd : d ∈ documents) :
    ∃ first : Document, first.IsFirstIn documents ∧ first.filename = d.filename := by
  let named := documents.filter (·.filename = d.filename)
  have hne : named ≠ [] := List.ne_nil_of_mem (List.mem_filter.2 ⟨hd, by simp⟩)
  obtain ⟨first, hm⟩ : ∃ first, first ∈ List.argmin (fun e : Document => e.id.toNat) named := by
    cases h : List.argmin (fun e : Document => e.id.toNat) named with
    | none => exact absurd (List.argmin_eq_none.1 h) hne
    | some first => exact ⟨first, rfl⟩
  obtain ⟨hfirst, hname⟩ := List.mem_filter.1 (List.argmin_mem hm)
  have hname : first.filename = d.filename := of_decide_eq_true hname
  refine ⟨first, ⟨hfirst, fun e he hf => ?_⟩, hname⟩
  have le := List.le_of_mem_argmin (List.mem_filter.2 ⟨he, by simpa [hname] using hf⟩) hm
  exact UInt32.le_iff_toNat_le.2 le

theorem isFirstIn_singleton (d : Document) : d.IsFirstIn [d] := by
  refine ⟨List.mem_cons_self, fun e he _ => ?_⟩
  rw [List.mem_singleton.1 he]
  exact UInt32.le_refl _

/-! ## Citing -/

/-- A context at the place that is found for it, or where it is. -/
def Context.placed (k : Context) : Option (Nat × Option Nat) → Context
  | some (position, page) => { k with position, page }
  | none => k

theorem locateContext_ofDocument (d : Document) (pages : UInt32) (k : Context) :
    locateContext (Row.ofDocument d) pages k = if k.page.isSome then k else k.placed (d.cite? pages k) := by
  have text : (Row.ofDocument d).text = d.text := rfl
  unfold locateContext Document.cite?
  rw [text]
  cases locate? d.text.toList k <;> rfl

/-- Where a snippet stands does not depend on where it was. -/
theorem cite?_move (d : Document) (pages : UInt32) (k : Context) (position : Nat) :
    d.cite? pages { k with position, page := none } = d.cite? pages k := by
  unfold Document.cite? locate?
  rfl

theorem locate_of_rowOf? {ix : Index} {d : Document} {h : Hit}
    (hr : ix.rowOf? h.filename = some (Row.ofDocument d)) :
    ix.locate [h] = [{ h with contexts := h.contexts.map (locateContext (Row.ofDocument d) h.pages) }] := by
  rw [locate_eq_map, List.map_singleton, locateHit_of_rowOf? hr]

/-- Documents that give the same answer for every hit of a document cite every snippet alike. -/
theorem cite?_eq_of_locateContext {d e : Document} {pages : UInt32}
    (h : ∀ k, locateContext (Row.ofDocument d) pages k = locateContext (Row.ofDocument e) pages k) (k : Context) :
    d.cite? pages k = e.cite? pages k := by
  -- a snippet without a page, at a position where it is not found
  have placed : ∀ position, Context.placed { k with position, page := none } (d.cite? pages k) =
      Context.placed { k with position, page := none } (e.cite? pages k) := by
    intro position
    have hk := h { k with position, page := none }
    rw [locateContext_ofDocument, locateContext_ofDocument, cite?_move, cite?_move] at hk
    exact hk
  rcases hd : d.cite? pages k with _ | ⟨p, a⟩ <;> rcases he : e.cite? pages k with _ | ⟨q, b⟩
  · rfl
  · have hk := placed (q + 1)
    simp [hd, he, Context.placed] at hk
  · have hk := placed (p + 1)
    simp [hd, he, Context.placed] at hk
  · have hk := placed 0
    simp only [hd, he, Context.placed, Context.mk.injEq, true_and] at hk
    rw [hk.1, hk.2]

/--
Every hit of a document is located as on an index that holds only the document exactly if the first document
of its filename cites every snippet as the document itself does.
-/
theorem locate_eq_alone_iff {c only : Corpus} {batchSize batchSize' : Nat} {ix alone : Index}
    (hix : ix.BuiltFrom c batchSize) {d : Document} (hd : d ∈ c.documents)
    (honly : ∃ id, only.documents = [{ d with id }]) (halone : alone.BuiltFrom only batchSize') :
    (∀ h : Hit, h.IsOf d → ix.locate [h] = alone.locate [h]) ↔
      ∃ first : Document, first.IsFirstIn c.documents ∧ first.filename = d.filename ∧
        ∀ k, first.cite? d.pages k = d.cite? d.pages k := by
  obtain ⟨rows, rfl, hs⟩ := hix.stores
  obtain ⟨row, rfl, hrow⟩ := halone.stores
  obtain ⟨first, hfirst, hname⟩ := exists_isFirstIn hd
  have there : (Index.ofRows rows).rowOf? d.filename = some (Row.ofDocument first) :=
    hname ▸ rowOf?_of_isFirstIn hs hfirst
  obtain ⟨id, honly⟩ := honly
  rw [honly] at hrow
  let single := { d with id }
  have here : (Index.ofRows row).rowOf? d.filename = some (Row.ofDocument single) :=
    rowOf?_of_isFirstIn hrow (isFirstIn_singleton single)
  constructor
  · intro same
    have alike : ∀ k,
        locateContext (Row.ofDocument first) d.pages k = locateContext (Row.ofDocument single) d.pages k := by
      intro k
      -- a hit of the document with the snippet alone
      have hh := same (d.hit 1 [k]) ⟨rfl, rfl, rfl, rfl⟩
      rw [locate_of_rowOf? (h := d.hit 1 [k]) there, locate_of_rowOf? (h := d.hit 1 [k]) here] at hh
      simpa [Document.hit] using hh
    refine ⟨first, hfirst, hname, fun k => ?_⟩
    rw [cite?_eq_of_locateContext alike k]
    rfl
  · rintro ⟨other, hother, hname', cites⟩ h hh
    have again : (Index.ofRows rows).rowOf? h.filename = some (Row.ofDocument other) := by
      rw [hh.filename, ← hname']
      exact rowOf?_of_isFirstIn hs hother
    have alike : ∀ k,
        locateContext (Row.ofDocument other) h.pages k = locateContext (Row.ofDocument single) h.pages k := by
      intro k
      rw [locateContext_ofDocument, locateContext_ofDocument, hh.pages, cites]
      rfl
    rw [locate_of_rowOf? again, locate_of_rowOf? (hh.filename ▸ here), List.map_congr_left fun k _ => alike k]

/-! ## A filename in two datasets -/

/-- A memo of three pages. -/
def memoDoc : Document := ⟨1, 1, "a.pdf", "DataSet 1/a.pdf", 3, "memo\x0cisland log\x0cend", some [0, 5, 16]⟩

/-- A log of two pages, in another dataset, with the filename of the memo. -/
def logDoc : Document := ⟨2, 2, "a.pdf", "DataSet 2/a.pdf", 2, "island log\x0cend", some [0, 11]⟩

/-- A hit of the log, whose snippet is all its text. -/
def logHit : Hit := logDoc.hit 1 [⟨0, "island log\x0cend", "island", none⟩]

/-- The positions and pages of the contexts of hits. -/
def citations (hits : List Hit) : List (Nat × Option Nat) :=
  hits.flatMap fun h => h.contexts.map fun k => (k.position, k.page)

theorem builtFrom_memo_log :
    (Index.ofRows ⟨[Row.ofDocument memoDoc, Row.ofDocument logDoc]⟩).BuiltFrom (.ofDocuments [memoDoc, logDoc]) 10000 :=
  builtFrom_iff.2 ⟨_, rfl, by decide, .refl _⟩

/-- The memo has the lesser id, and is cited as if it were alone. -/
theorem locate_memo :
    ∃ ix alone : Index, ix.BuiltFrom (.ofDocuments [memoDoc, logDoc]) 10000 ∧
      alone.BuiltFrom (.ofDocuments [memoDoc]) 10000 ∧
        ∀ h : Hit, h.IsOf memoDoc → ix.locate [h] = alone.locate [h] := by
  have halone : (Index.ofRows ⟨[Row.ofDocument memoDoc]⟩).BuiltFrom (.ofDocuments [memoDoc]) 10000 :=
    builtFrom_iff.2 ⟨_, rfl, by decide, .refl _⟩
  refine ⟨_, _, builtFrom_memo_log, halone, ?_⟩
  exact (locate_eq_alone_iff builtFrom_memo_log (d := memoDoc) (by decide +kernel) ⟨1, by decide +kernel⟩ halone).2
    ⟨memoDoc, by unfold Document.IsFirstIn; decide +kernel, rfl, fun _ => rfl⟩

/-- The log is cited where the memo has the snippet, on the page that the memo has there. -/
theorem locate_log :
    ∃ ix alone : Index, ix.BuiltFrom (.ofDocuments [memoDoc, logDoc]) 10000 ∧
      alone.BuiltFrom (.ofDocuments [logDoc]) 10000 ∧
      logHit.IsOf logDoc ∧ citations (ix.locate [logHit]) = [(5, some 2)] ∧
      citations (alone.locate [logHit]) = [(0, some 1)] := by
  have halone : (Index.ofRows ⟨[Row.ofDocument { logDoc with id := 1 }]⟩).BuiltFrom (.ofDocuments [logDoc]) 10000 :=
    builtFrom_iff.2 ⟨_, rfl, by decide, .refl _⟩
  exact ⟨_, _, builtFrom_memo_log, halone, ⟨rfl, rfl, rfl, rfl⟩, by decide +kernel, by decide +kernel⟩

end Concordance
