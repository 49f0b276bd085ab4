/-
A query by its quotes. They cut it into pieces, one more than there are quotes. The pieces fall by turns outside
and between quotes: outside a piece falls into words, and between two quotes it is one phrase. Behind a last quote
without a partner the piece falls into words too, as if the quote were a blank.
-/
import Concordance.Proofs.Query.Tokens
import Concordance.Proofs.Text.Pieces

namespace Concordance.Query

open Text

/-- The tokens of a text without quotes: its words, each read on its own. -/
def wordTokens (s : List Char) : List Token := (words s).map Token.classify

/-- The token of a text between two quotes, unless the text is blank. -/
def phraseTokens (s : List Char) : List Token := if s.all isBlank then [] else [.phrase (String.ofList s)]

/-- The tokens of the piece behind the first `i` of `k` quotes. It is a phrase if it stands between two of them. -/
def pieceTokens (k i : Nat) (s : List Char) : List Token :=
  if i % 2 = 1 ∧ i < k then phraseTokens s else wordTokens s

/-- The tokens of pieces cut at `k` quotes. -/
def piecesTokens (k : Nat) (cut : List (List Char)) : List Token :=
  cut.zipIdx.flatMap fun piece => pieceTokens k piece.2 piece.1

/-! ## Words before a quote -/

variable {s : List Char}

/-- A text without quotes falls into its words, up to a quote. -/
theorem tokenize_words {s t : List Char} (hs : '"' ∉ s) (ht : ∀ c ∈ t.head?, c = '"') :
    tokenize (s ++ t) = ⟨wordTokens s ++ (tokenize t).list, (tokenize t).unterminatedQuote⟩ := by
  induction s using wordInduction with
  | nil => rfl
  | blank c s hc ih =>
    have later : '"' ∉ s := fun hq => hs (List.mem_cons_of_mem c hq)
    rw [List.cons_append, tokenize_blank hc, ih later, wordTokens, wordTokens, words_blank hc]
  | word w after hne hw ends ih =>
    have free : '"' ∉ w ∧ '"' ∉ after := by
      rwa [List.mem_append, not_or] at hs
    have inside : ∀ x ∈ w, inWord x = true := fun x hx => inWord_iff.2 ⟨hw x hx, fun he => free.1 (he ▸ hx)⟩
    have stop : ∀ x ∈ (after ++ t).head?, inWord x = false := by
      intro x hx
      rw [List.head?_append, Option.mem_def, Option.or_eq_some_iff] at hx
      rcases hx with hx | ⟨-, hx⟩
      · simp [inWord, ends x hx]
      · simp [inWord, ht x hx]
    rw [List.append_assoc, tokenize_word hne inside stop, ih free.2, wordTokens, wordTokens, words_word hne hw ends]
    rfl

theorem tokenize_of_no_quote (h : '"' ∉ s) : tokenize s = ⟨wordTokens s, false⟩ := by
  have alone := tokenize_words h (t := []) nofun
  rwa [List.append_nil, tokenize_nil, List.append_nil] at alone

/-! ## Piece by piece -/

theorem pieceTokens_add_two (k i : Nat) (s : List Char) : pieceTokens (k + 2) (i + 2) s = pieceTokens k i s := by
  simp only [pieceTokens, Nat.add_mod_right, Nat.add_lt_add_iff_right]

/-- Two quotes in front put a text and a phrase in front. -/
theorem piecesTokens_cons_cons (k : Nat) (s body : List Char) (cut : List (List Char)) :
    piecesTokens (k + 2) (s :: body :: cut) = wordTokens s ++ (phraseTokens body ++ piecesTokens k cut) := by
  have first : pieceTokens (k + 2) 0 s = wordTokens s := if_neg (by omega)
  have second : pieceTokens (k + 2) 1 body = phraseTokens body := if_pos (by omega)
  have later : (cut.zipIdx 2).flatMap (fun piece => pieceTokens (k + 2) piece.2 piece.1) = piecesTokens k cut := by
    have shift := @List.map_snd_add_zipIdx_eq_zipIdx _ cut 2 0
    rw [← shift, List.flatMap_map]
    simp only [Prod.map_fst, Prod.map_snd, id_eq, pieceTokens_add_two]
    rfl
  unfold piecesTokens
  rw [List.zipIdx_cons, List.zipIdx_cons, List.flatMap_cons, List.flatMap_cons, first, second]
  exact congrArg (fun ts => wordTokens s ++ (phraseTokens body ++ ts)) later

/-- No letter of a text without quotes is one. -/
theorem beq_quote (h : '"' ∉ s) : ∀ c ∈ s, (c == '"') = false := by
  intro c hc
  refine beq_false_of_ne ?_
  rintro rfl
  exact h hc

theorem list_consPhrase (body : List Char) (ts : Tokens) :
    (ts.consPhrase body).list = phraseTokens body ++ ts.list := by
  unfold Tokens.consPhrase phraseTokens
  split <;> rfl

/-- A quote without a partner is passed over. -/
theorem list_tokenize_quote (h : '"' ∉ s) : (tokenize ('"' :: s)).list = wordTokens s := by
  have cut : cutAt? (· == '"') s = none := cutAt?_eq_none_iff.2 (beq_quote h)
  rw [tokenize, if_neg (by decide), if_pos rfl]
  split
  · rename_i hcut
    rw [cut] at hcut
    cases hcut
  · rw [tokenize_of_no_quote h]

/-- The tokens of a query are those of its pieces. -/
theorem list_tokenize (s : List Char) : (tokenize s).list = piecesTokens (s.count '"') (pieces (· == '"') s) := by
  have count {t : List Char} (h : '"' ∉ t) : t.count '"' = 0 := List.count_eq_zero.2 h
  by_cases hs : '"' ∈ s
  · obtain ⟨before, rest, split, hb⟩ := List.eq_append_cons_of_mem hs
    have start := tokenize_words hb (t := '"' :: rest) fun c hc => (Option.some_inj.1 hc).symm
    rw [split, start, List.count_append, List.count_cons_self, count hb, pieces_append_cons _ rfl _ (beq_quote hb)]
    by_cases hr : '"' ∈ rest
    · -- two quotes: a phrase, and by induction what is behind it
      obtain ⟨body, after, rfl, hbody⟩ := List.eq_append_cons_of_mem hr
      have shorter : after.length < s.length := by
        rw [split]
        simp only [List.length_append, List.length_cons]
        omega
      rw [tokenize_phrase hbody, list_consPhrase, list_tokenize after, List.count_append, List.count_cons_self,
        count hbody, pieces_append_cons _ rfl _ (beq_quote hbody), Nat.zero_add, Nat.zero_add, piecesTokens_cons_cons]
    · rw [list_tokenize_quote hr, count hr, pieces_of_none _ (beq_quote hr)]
      simp [piecesTokens, pieceTokens]
  · rw [tokenize_of_no_quote hs, count hs, pieces_of_none _ (beq_quote hs)]
    simp [piecesTokens, pieceTokens]
termination_by s.length

/-! ## Spellings -/

/-- What a token of a query is spelled with: not blank, without quotes, and without blanks unless it is a phrase. -/
structure Token.IsSpelled (t : Token) : Prop where
  inked : ∃ c ∈ t.text.toList, isBlank c = false
  no_quote : '"' ∉ t.text.toList
  no_blank : (∀ body, t ≠ .phrase body) → ∀ c ∈ t.text.toList, isBlank c = false

theorem text_classify (w : List Char) : (Token.classify w).text = String.ofList w := by
  unfold Token.classify
  repeat' split
  all_goals rfl

theorem isSpelled_classify (hne : w ≠ []) (hb : ∀ c ∈ w, isBlank c = false) (hq : '"' ∉ w) :
    (Token.classify w).IsSpelled := by
  have letters : (Token.classify w).text.toList = w := by rw [text_classify, String.toList_ofList]
  obtain ⟨c, hc⟩ := List.exists_mem_of_ne_nil w hne
  exact ⟨⟨c, by rwa [letters], hb c hc⟩, by rwa [letters], fun _ => by rwa [letters]⟩

theorem isSpelled_of_mem_pieceTokens {k i : Nat} {t : Token} (hq : '"' ∉ s) (ht : t ∈ pieceTokens k i s) :
    t.IsSpelled := by
  unfold pieceTokens at ht
  split at ht
  · unfold phraseTokens at ht
    split at ht
    · cases ht
    · rename_i inked
      rw [List.mem_singleton.1 ht]
      have letters : (Token.phrase (String.ofList s)).text.toList = s := String.toList_ofList
      rw [Bool.not_eq_true, List.all_eq_false] at inked
      obtain ⟨c, hc, hblank⟩ := inked
      exact ⟨⟨c, by rwa [letters], by simpa using hblank⟩, by rwa [letters], fun other => absurd rfl (other _)⟩
  · obtain ⟨w, hw, rfl⟩ := List.mem_map.1 ht
    obtain ⟨hw, hne⟩ := List.mem_filter.1 hw
    exact isSpelled_classify (by simpa using hne) (fun c hc => (mem_of_mem_pieces isBlank hw hc).2)
      fun h => hq (mem_of_mem_pieces isBlank hw h).1

/--
For every text: its quotes cut it into pieces without quotes, one more than there are quotes. Its tokens are those of
the pieces in order, every second piece being a phrase if a quote ends it, and all others falling into words. A
quote is left without a partner exactly if their number is odd. So no token is blank or holds a quote, and none but
phrases hold blanks.
-/
theorem tokenize_at_quotes (s : List Char) :
    ((pieces (· == '"') s).length = s.count '"' + 1 ∧ joinWith ['"'] (pieces (· == '"') s) = s ∧
        ∀ piece ∈ pieces (· == '"') s, '"' ∉ piece) ∧
      (tokenize s).list = piecesTokens (s.count '"') (pieces (· == '"') s) ∧
      ((tokenize s).unterminatedQuote = true ↔ Odd (s.count '"')) ∧
      ∀ t ∈ (tokenize s).list, t.IsSpelled := by
  have free : ∀ piece ∈ pieces (· == '"') s, '"' ∉ piece := by
    intro piece hp hq
    exact absurd (mem_of_mem_pieces _ hp hq).2 (by simp)
  refine ⟨⟨length_pieces _ s, joinWith_pieces '"' s, free⟩, list_tokenize s, unterminatedQuote_tokenize s, ?_⟩
  intro t ht
  rw [list_tokenize] at ht
  obtain ⟨⟨piece, i⟩, hp, ht⟩ := List.mem_flatMap.1 ht
  exact isSpelled_of_mem_pieceTokens (free piece (List.fst_mem_of_mem_zipIdx hp)) ht

end Concordance.Query
