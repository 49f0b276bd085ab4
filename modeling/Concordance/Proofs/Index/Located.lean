/-
Which snippets can be located. The marks of a snippet are taken out of it everywhere, and with them those that
the text itself holds; the snippet is then looked for in the text. So a snippet is located, inside the part of
the text that it shows and on the page there, exactly if that part without marks still is a part of the text;
a text without marks holds all its snippets.
-/
import Concordance.Proofs.Index.Anchor
import Concordance.Proofs.Index.Answers
import Concordance.Proofs.Index.Citation
import Concordance.Proofs.Index.Offsets
import Concordance.Proofs.Index.Snippet
import Concordance.Proofs.Page.Lookup

namespace Concordance

open Text

namespace Index

open Snippet

/-! ## What is looked for -/

/-- Of a snippet's end at most the ellipsis is left out in front. -/
theorem exists_dropPrefix {part pre : List Char} {c : Char} (hc : c ∈ part) (hd : c ∉ ellipsis)
    (hpre : IsEnd pre) (post : List Char) :
    ∃ rest, dropPrefix ellipsis (pre ++ part ++ post) = rest ++ post ∧ rest <:+: part ∧ c ∈ rest := by
  rcases hpre with rfl | rfl
  · obtain ⟨a, b, rfl⟩ := List.append_of_mem hc
    rw [List.nil_append, List.append_assoc, List.cons_append, dropPrefix]
    split
    · rename_i here
      rw [List.isPrefixOf_iff_prefix, prefix_append_cons_iff hd] at here
      obtain ⟨u, rfl⟩ := here
      refine ⟨u ++ c :: b, ?_, ?_, List.mem_append_right _ List.mem_cons_self⟩
      · rw [List.append_assoc, List.drop_left, List.append_assoc, List.cons_append]
      · rw [List.append_assoc]
        exact (List.suffix_append _ _).isInfix
    · exact ⟨a ++ c :: b, by rw [List.append_assoc, List.cons_append], List.infix_rfl, hc⟩
  · refine ⟨part, ?_, List.infix_rfl, hc⟩
    have here : ellipsis.isPrefixOf (ellipsis ++ (part ++ post)) = true :=
      List.isPrefixOf_iff_prefix.2 (List.prefix_append _ _)
    rw [List.append_assoc, dropPrefix, if_pos here, List.drop_left]

/-- And at most the ellipsis behind. -/
theorem dropSuffix_isInfix {part post : List Char} {c : Char} (hc : c ∈ part) (hd : c ∉ ellipsis)
    (hpost : IsEnd post) :
    dropSuffix ellipsis (part ++ post) <:+: part ∧ c ∈ dropSuffix ellipsis (part ++ post) := by
  unfold dropSuffix
  rcases hpost with rfl | rfl
  · rw [List.append_nil]
    split
    · rename_i here
      obtain ⟨a, b, rfl⟩ := List.append_of_mem hc
      rw [List.isSuffixOf_iff_suffix, suffix_append_cons_iff hd] at here
      obtain ⟨u, rfl⟩ := here
      have cut : (a ++ c :: (u ++ ellipsis)).take ((a ++ c :: (u ++ ellipsis)).length - ellipsis.length) =
          a ++ c :: u := by
        rw [← List.cons_append, ← List.append_assoc, List.length_append, Nat.add_sub_cancel, List.take_left]
      rw [cut]
      refine ⟨?_, List.mem_append_right _ List.mem_cons_self⟩
      rw [← List.cons_append, ← List.append_assoc]
      exact (List.prefix_append _ _).isInfix
    · exact ⟨List.infix_rfl, hc⟩
  · have here : ellipsis.isSuffixOf (part ++ ellipsis) = true :=
      List.isSuffixOf_iff_suffix.2 (List.suffix_append _ _)
    rw [if_pos here, List.length_append, Nat.add_sub_cancel, List.take_left]
    exact ⟨List.infix_rfl, hc⟩

/-- What is looked for is a part of what is shown, and not empty if that holds a token character. -/
theorem snippetBody_isInfix {pre part post : List Char} (hpre : IsEnd pre) (hpost : IsEnd post) {c : Char}
    (hc : c ∈ part) (htoken : isTokenChar c = true) :
    snippetBody (pre ++ part ++ post) <:+: part ∧ snippetBody (pre ++ part ++ post) ≠ [] := by
  have dot : c ∉ ellipsis := by
    have separates : isTokenChar '.' = false := by decide +kernel
    exact fun h => ne_of_isTokenChar separates htoken (eq_of_mem_ellipsis h)
  obtain ⟨rest, hrest, hinfix, hm⟩ := exists_dropPrefix hc dot hpre post
  obtain ⟨hinfix', hm'⟩ := dropSuffix_isInfix hm dot hpost
  rw [snippetBody, hrest]
  exact ⟨(trim_isInfix _).trans (hinfix'.trans hinfix),
    List.ne_nil_of_mem (mem_trim hm' (isBlank_of_isTokenChar htoken))⟩

/-! ## Where it is found -/

/-- A position inside a place where a text holds a part. -/
def IsInside (text part : List Char) (position : Nat) : Prop :=
  ∃ start, part <+: text.drop start ∧ start ≤ position ∧ position < start + part.length

theorem exists_locate? {text : List Char} {k : Context} (hne : snippetBody k.excerpt.toList ≠ [])
    (h : snippetBody k.excerpt.toList <:+: text) :
    ∃ position, locate? text k = some position ∧ IsInside text (snippetBody k.excerpt.toList) position := by
  cases hlocate : locate? text k with
  | none =>
    rcases locate?_eq_none_iff.1 hlocate with empty | absent
    · exact absurd empty hne
    · exact absurd h absent
  | some position =>
    obtain ⟨start, within, least, -, rfl, inside⟩ := exists_of_locate? hlocate
    exact ⟨_, rfl, start, least.1, Nat.le_add_right start within, Nat.add_lt_add_left inside start⟩

/-! ## Hits -/

variable {rows : Rows} {documents : List Document}

theorem not_holds_interpret_nil (e : List Char) : ¬ (interpret e).Holds [] := by
  unfold interpret
  split
  · exact Query.not_holds_nothing []
  · split
    · exact Query.not_holds_ofExpression_nil _
    · split
      · exact Query.not_holds_ofExpression_nil _
      · exact Query.not_holds_nothing []

/-- A hit is one for a document with tokens, and shows the snippet of some of them without its marks. -/
theorem exists_snippet_of_mem_search (hs : rows.Stores documents) {t : Term} {h : Hit}
    (hh : h ∈ (Index.ofRows rows).search t) :
    ∃ d ∈ documents, h.IsOf d ∧ tokens d.text.toList ≠ [] ∧
      ∃ found start, h.contexts =
        [⟨0, String.ofList (unmark (render d.text.toList (tokens d.text.toList) found start)), t.text, none⟩] := by
  rw [search, run_eq] at hh
  obtain ⟨f, hf, rfl⟩ := List.mem_map.1 hh
  obtain ⟨x, hx, hm⟩ := List.mem_filterMap.1 ((ranked_perm _ _).mem_iff.1 hf)
  obtain ⟨places, hp, rfl⟩ := Option.map_eq_some_iff.1 hm
  obtain ⟨r, hr, rfl⟩ := List.mem_map.1 hx
  obtain ⟨d, hd, rfl⟩ := List.mem_map.1 (hs.perm.mem_iff.1 hr)
  refine ⟨d, hd, ⟨rfl, rfl, rfl, rfl⟩, fun none => ?_, _, _, rfl⟩
  have empty : (Entry.ofRow (Row.ofDocument d)).terms = [] := by
    show (tokens d.text.toList).map (·.term) = []
    rw [none, List.map_nil]
  rw [empty] at hp
  exact not_holds_interpret_nil _ (by rw [Query.Holds, hp]; rfl)

/-- Of distinct filenames each is looked up in the row of its own document. -/
theorem rowOf?_of_nodup (hs : rows.Stores documents) (hn : (documents.map (·.filename)).Nodup) {d : Document}
    (hd : d ∈ documents) : (Index.ofRows rows).rowOf? d.filename = some (Row.ofDocument d) := by
  refine rowOf?_of_isFirstIn hs ⟨hd, fun e he hf => ?_⟩
  rw [List.inj_on_of_nodup_map hn he hd hf]
  exact UInt32.le_refl _

/-- Is a context cited inside a part of a text, on the page where a table has its position? -/
structure IsCited (text part : List Char) (offsets : List Nat) (pages : UInt32) (k : Context) : Prop where
  inside : IsInside text part k.position
  page : k.page = some (Page.pageAt offsets k.position pages)
  /-- It is a number of 32 bits, unless no number of pages is stated and the table is longer. -/
  small : 0 < pages ∨ offsets.length < UInt32.size → ∀ p ∈ k.page, p < UInt32.size

theorem isCited_locateContext {d : Document} {offsets : List Nat} (hd : d.pageOffsets = some offsets)
    (hne : offsets ≠ []) (hsize : ∀ o ∈ offsets, o < UInt64.size) {k : Context} (hk : k.page = none)
    (hbody : snippetBody k.excerpt.toList ≠ []) (h : snippetBody k.excerpt.toList <:+: d.text.toList)
    (pages : UInt32) :
    IsCited d.text.toList (snippetBody k.excerpt.toList) offsets pages (locateContext (Row.ofDocument d) pages k) := by
  obtain ⟨position, hlocate, hinside⟩ := exists_locate? hbody h
  have page : citedPage? (Row.ofDocument d).offsets? position pages = some (Page.pageAt offsets position pages) := by
    have kept : (!offsets.isEmpty) = true := by simpa using hne
    have stored : ∀ table, d.pageOffsets = some table → ∀ o ∈ table, o < UInt64.size := by
      rintro table ht
      rw [hd] at ht
      exact Option.some.inj ht ▸ hsize
    rw [offsets?_ofDocument stored, hd, Option.filter_some, if_pos kept, citedPage?, Option.filter_some, if_pos kept]
    rfl
  have cited : d.cite? pages k = some (position, some (Page.pageAt offsets position pages)) := by
    rw [Document.cite?, hlocate, Option.map_some, page]
  rw [locateContext_ofDocument, hk, cited]
  refine ⟨hinside, rfl, fun bound p hp => ?_⟩
  obtain rfl : Page.pageAt offsets position pages = p := Option.mem_some_iff.1 hp
  exact Page.pageAt_lt_size bound position

theorem locateContext_of_not_isInfix {d : Document} {k : Context}
    (h : ¬ snippetBody k.excerpt.toList <:+: d.text.toList) (pages : UInt32) :
    locateContext (Row.ofDocument d) pages k = k := by
  rw [locateContext_ofDocument, Document.cite?, locate?_eq_none_iff.2 (.inr h)]
  exact ite_self k

/-- A token character is no sign of a mark. -/
theorem notMem_marks {c : Char} (h : isTokenChar c = true) : c ∉ openMark ∧ c ∉ closeMark := by
  have separate : isTokenChar '>' = false ∧ isTokenChar '<' = false := by decide +kernel
  exact ⟨notMem_openMark (ne_of_isTokenChar separate.1 h), notMem_closeMark (ne_of_isTokenChar separate.2 h)⟩

/--
On an index of distinct filenames every hit of a search has one snippet. For a document with a page table and
without a NUL, which would end what is copied, that snippet is cited inside a part of the text, on the page of
its position, exactly if it is a part of the text; else the hit stays as it is. And it is a part of the text if
the text holds neither mark.
-/
theorem locate_search_iff {ix : Index} {c : Corpus} {batchSize : Nat} (hix : ix.BuiltFrom c batchSize)
    (hc : (c.documents.map (·.filename)).Nodup) {t : Term} {h : Hit} (hh : h ∈ ix.search t) :
    ∃ d ∈ c.documents, h.IsOf d ∧
      ∀ offsets, d.pageOffsets = some offsets → offsets ≠ [] → (∀ o ∈ offsets, o < UInt64.size) →
        '\x00' ∉ d.text.toList →
          ∃ k, h.contexts = [k] ∧
            let part := snippetBody k.excerpt.toList
            (∃ shown, shown <:+: d.text.toList ∧ part <:+: unmark shown) ∧
            ((∀ g ∈ ix.locate [h], ∀ l ∈ g.contexts, IsCited d.text.toList part offsets d.pages l) ↔
              part <:+: d.text.toList) ∧
            (¬ part <:+: d.text.toList → ix.locate [h] = [h]) ∧
            (¬ openMark <:+: d.text.toList → ¬ closeMark <:+: d.text.toList → part <:+: d.text.toList) := by
  obtain ⟨rows, rfl, hs⟩ := hix.stores
  obtain ⟨d, hd, hof, htokens, found, start, hcontexts⟩ := exists_snippet_of_mem_search hs hh
  refine ⟨d, hd, hof, fun offsets hoffsets hne hsize hnul => ⟨_, hcontexts, ?_⟩⟩
  obtain ⟨pre, shown, post, hpre, hpost, hshown, ⟨x, hx, htoken⟩, hunmark⟩ := unmark_render hnul htokens found start
  let k : Context :=
    ⟨0, String.ofList (unmark (render d.text.toList (tokens d.text.toList) found start)), t.text, none⟩
  have excerpt : k.excerpt.toList = pre ++ unmark shown ++ post := by
    rw [← hunmark]
    exact String.toList_ofList
  have body := snippetBody_isInfix hpre hpost (mem_unmark (notMem_marks htoken).1 (notMem_marks htoken).2 hx) htoken
  rw [← excerpt] at body
  have located : (Index.ofRows rows).locate [h] =
      [{ h with contexts := [locateContext (Row.ofDocument d) d.pages k] }] := by
    rw [locate_of_rowOf? (hof.filename ▸ rowOf?_of_nodup hs hc hd), hcontexts, hof.pages]
    rfl
  have lost (hout : ¬ snippetBody k.excerpt.toList <:+: d.text.toList) : (Index.ofRows rows).locate [h] = [h] := by
    rw [located, locateContext_of_not_isInfix hout, ← hcontexts]
  refine ⟨⟨shown, hshown, body.1⟩, ⟨fun cited => ?_, fun hin g hg l hl => ?_⟩, lost, fun ho hm => ?_⟩
  · -- what is not found is left without a page
    by_contra hout
    rw [lost hout] at cited
    have cite := cited h (List.mem_singleton_self h) k (hcontexts ▸ List.mem_singleton_self k)
    exact Option.some_ne_none _ cite.page.symm
  · rw [located, List.mem_singleton] at hg
    rw [hg, List.mem_singleton] at hl
    rw [hl]
    exact isCited_locateContext hoffsets hne hsize rfl body.2 hin d.pages
  · rw [unmark_eq_self (fun h => ho (h.trans hshown)) fun h => hm (h.trans hshown)] at body
    exact body.1.trans hshown

/-! ## Signs in a text -/

/-- A log of one page with a sign between its words. -/
def signLog (sign : String) : Document :=
  ⟨1, 1, "a.pdf", "DataSet 1/a.pdf", 1, "island " ++ sign ++ " log", some [0]⟩

/-- An index that holds the log alone. -/
def signIndex (sign : String) : Index := .ofRows ⟨[Row.ofDocument (signLog sign)]⟩

theorem builtFrom_arrow : (signIndex "<-").BuiltFrom (.ofDocuments [signLog "<-"]) 10000 :=
  builtFrom_iff.2 ⟨_, rfl, by decide, .refl _⟩

theorem builtFrom_sign : (signIndex "<<<<").BuiltFrom (.ofDocuments [signLog "<<<<"]) 10000 :=
  builtFrom_iff.2 ⟨_, rfl, by decide, .refl _⟩

/-- An arrow is no mark, so the snippet of a log with one is located. -/
theorem locate_search_arrow :
    ∃ h ∈ (signIndex "<-").search ⟨"island", false⟩,
      (signIndex "<-").BuiltFrom (.ofDocuments [signLog "<-"]) 10000 ∧
        ∃ k, h.contexts = [k] ∧ snippetBody k.excerpt.toList <:+: (signLog "<-").text.toList ∧
          ∀ g ∈ (signIndex "<-").locate [h], ∀ l ∈ g.contexts,
            IsCited (signLog "<-").text.toList (snippetBody k.excerpt.toList) [0] 1 l := by
  have found : (signIndex "<-").search ⟨"island", false⟩ =
      [(signLog "<-").hit 1 [⟨0, "island <- log", "island", none⟩]] := by
    decide +kernel
  have documents : (Corpus.ofDocuments [signLog "<-"]).documents = [signLog "<-"] := by decide +kernel
  have hh := found ▸ List.mem_singleton_self _
  refine ⟨_, hh, builtFrom_arrow, ?_⟩
  obtain ⟨d, hd, -, cited⟩ := locate_search_iff builtFrom_arrow (by decide +kernel) hh
  rw [documents, List.mem_singleton] at hd
  subst hd
  obtain ⟨k, hk, -, cites, -, unmarked⟩ :=
    cited [0] rfl (List.cons_ne_nil _ _) (by decide +kernel) (by decide +kernel)
  have here := unmarked (by decide +kernel) (by decide +kernel)
  exact ⟨k, hk, here, cites.2 here⟩

/-- A log that holds the sign that closes a mark loses it in its snippet, which then is found nowhere. -/
theorem locate_search_sign :
    ∃ h ∈ (signIndex "<<<<").search ⟨"island", false⟩,
      (signIndex "<<<<").BuiltFrom (.ofDocuments [signLog "<<<<"]) 10000 ∧
        (signLog "<<<<").pageOffsets = some [0] ∧
        (Corpus.ofDocuments [signLog "<<<<"]).documents = [signLog "<<<<"] ∧
        h.contexts = [⟨0, "island  log", "island", none⟩] ∧
        ¬ snippetBody "island  log".toList <:+: (signLog "<<<<").text.toList ∧
        (signIndex "<<<<").locate [h] = [h] := by
  have found : (signIndex "<<<<").search ⟨"island", false⟩ =
      [(signLog "<<<<").hit 1 [⟨0, "island  log", "island", none⟩]] := by
    decide +kernel
  exact ⟨_, found ▸ List.mem_singleton_self _, builtFrom_sign, rfl, by decide +kernel, rfl, by decide +kernel,
    by decide +kernel⟩

end Index

end Concordance
