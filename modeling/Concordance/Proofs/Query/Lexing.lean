/-
Texts that fall into the tokens they were spelled from: plain words, keywords, phrases, and such texts joined
by separators. What stands behind a text does not matter as long as it starts with a blank.
-/
import Concordance.Proofs.Query.Tokens
import Concordance.Proofs.Text.Decimal
import Concordance.Proofs.Text.Pieces

namespace Concordance.Query

open Text

/-! ## Keywords and plain words -/

/-- Is a word AND, OR, NOT, or NEAR/ and the digits of a number that fits a distance, in any ASCII case? -/
def IsKeyword (w : List Char) : Prop :=
  Token.lower w = ['a', 'n', 'd'] ∨ Token.lower w = ['o', 'r'] ∨ Token.lower w = ['n', 'o', 't'] ∨
    (Token.lower (w.take 5) = ['n', 'e', 'a', 'r', '/'] ∧ w.drop 5 ≠ [] ∧ (∀ c ∈ w.drop 5, c.isDigit = true) ∧
      decimalValue (w.drop 5) < UInt32.size)

instance (w : List Char) : Decidable (IsKeyword w) :=
  decidable_of_iff
    (Token.lower w = ['a', 'n', 'd'] ∨ Token.lower w = ['o', 'r'] ∨ Token.lower w = ['n', 'o', 't'] ∨
      (Token.lower (w.take 5) = ['n', 'e', 'a', 'r', '/'] ∧ w.drop 5 ≠ [] ∧ (w.drop 5).all Char.isDigit = true ∧
        decimalValue (w.drop 5) < UInt32.size))
    (by simp only [IsKeyword, List.all_eq_true])

/-- A word that is read as itself. -/
structure IsPlainWord (w : List Char) : Prop where
  nonempty : w ≠ []
  no_blank : ∀ c ∈ w, isBlank c = false
  no_quote : '"' ∉ w
  no_keyword : ¬ IsKeyword w

theorem isPlainWord_iff {w : List Char} : IsPlainWord w ↔ w ≠ [] ∧ w.all inWord = true ∧ ¬ IsKeyword w := by
  simp only [List.all_eq_true, inWord_iff]
  constructor
  · rintro ⟨some, no_blank, no_quote, no_keyword⟩
    exact ⟨some, fun c hc => ⟨no_blank c hc, fun h => no_quote (h ▸ hc)⟩, no_keyword⟩
  · rintro ⟨some, inside, no_keyword⟩
    exact ⟨some, fun c hc => (inside c hc).1, fun hq => (inside _ hq).2 rfl, no_keyword⟩

instance (w : List Char) : Decidable (IsPlainWord w) := decidable_of_iff _ isPlainWord_iff.symm

variable {w : List Char}

theorem IsPlainWord.inWord (h : IsPlainWord w) : ∀ c ∈ w, inWord c = true :=
  List.all_eq_true.1 (isPlainWord_iff.1 h).2.1

theorem nearDistance?_eq_none (h : ¬ IsKeyword w) : Token.nearDistance? w = none := by
  unfold Token.nearDistance?
  split
  · rename_i near
    rw [Option.map_eq_none_iff, readBelow?, Option.filter_eq_none_iff]
    intro n hn
    unfold readDecimal? at hn
    split at hn
    · rename_i digits
      rw [Bool.and_eq_true, Bool.not_eq_true', List.isEmpty_eq_false_iff, List.all_eq_true] at digits
      cases hn
      intro small
      exact h (.inr (.inr (.inr ⟨near, digits.1, digits.2, of_decide_eq_true small⟩)))
    · cases hn
  · rfl

theorem classify_of_not_isKeyword (h : ¬ IsKeyword w) : Token.classify w = .word (String.ofList w) := by
  unfold Token.classify
  rw [if_neg fun hw => h (.inl hw), if_neg fun hw => h (.inr (.inl hw)), if_neg fun hw => h (.inr (.inr (.inl hw))),
    nearDistance?_eq_none h]

/-- NEAR/ with the digits of a distance spells a NEAR of that distance. -/
theorem classify_near (d : UInt32) :
    Token.classify ("NEAR/".toList ++ decimal d.toNat) = .near d ("NEAR/" ++ decimalText d.toNat) := by
  have text : String.ofList ("NEAR/".toList ++ decimal d.toNat) = "NEAR/" ++ decimalText d.toNat := by
    rw [String.ofList_append, String.ofList_toList]
    rfl
  have five : "NEAR/".toList = ['N', 'E', 'A', 'R', '/'] := rfl
  have distance : Token.nearDistance? ("NEAR/".toList ++ decimal d.toNat) = some d := by
    have spelled : Token.lower (("NEAR/".toList ++ decimal d.toNat).take 5) = ['n', 'e', 'a', 'r', '/'] := rfl
    have digits : ("NEAR/".toList ++ decimal d.toNat).drop 5 = decimal d.toNat := rfl
    rw [Token.nearDistance?, if_pos spelled, digits, readBelow?, readDecimal?_decimal, Option.filter_some,
      if_pos (by simpa using d.toNat_lt_size), Option.map_some, UInt32.ofNat_toNat]
  -- the word starts with N and E, so it is none of the other keywords
  unfold Token.classify
  rw [distance, text, five]
  simp [Token.lower]

theorem inWord_of_isDigit {c : Char} (h : c.isDigit = true) : inWord c = true := by
  have range : 48 ≤ c.toNat ∧ c.toNat ≤ 57 := by
    simpa [Char.isDigit, UInt32.le_iff_toNat_le] using h
  have blank : isBlank c = false := by
    unfold isBlank
    generalize c.toNat = n at range
    obtain ⟨low, high⟩ := range
    interval_cases n <;> rfl
  refine inWord_iff.2 ⟨blank, ?_⟩
  rintro rfl
  exact absurd h (by decide)

/-! ## Lexing -/

/-- Does a text fall into these tokens, whatever stands behind it at a blank? -/
def Lexes (s : List Char) (ts : List Token) : Prop :=
  ∀ rest : List Char, (∀ c ∈ rest.head?, isBlank c = true) →
    tokenize (s ++ rest) = ⟨ts ++ (tokenize rest).list, (tokenize rest).unterminatedQuote⟩

variable {s : List Char} {ts : List Token}

theorem Lexes.tokenize (h : Lexes s ts) : tokenize s = ⟨ts, false⟩ := by
  have alone := h [] nofun
  rwa [List.append_nil, tokenize_nil, List.append_nil] at alone

theorem lexes_nil : Lexes [] [] := fun _ _ => rfl

theorem lexes_word (hne : w ≠ []) (hw : ∀ c ∈ w, inWord c = true) : Lexes w [Token.classify w] := by
  intro rest hr
  rw [tokenize_word hne hw]
  · rfl
  · intro c hc
    simp [inWord, hr c hc]

theorem lexes_plainWord (h : IsPlainWord w) : Lexes w [.word (String.ofList w)] := by
  rw [← classify_of_not_isKeyword h.no_keyword]
  exact lexes_word h.nonempty h.inWord

theorem lexes_near (d : UInt32) :
    Lexes ("NEAR/".toList ++ decimal d.toNat) [.near d ("NEAR/" ++ decimalText d.toNat)] := by
  have start : "NEAR/".toList.all inWord = true := by decide
  rw [← classify_near]
  refine lexes_word (by simp) ?_
  intro c hc
  rcases List.mem_append.1 hc with hc | hc
  · exact List.all_eq_true.1 start c hc
  · exact inWord_of_isDigit (isDigit_of_mem_decimal hc)

theorem lexes_phrase {body : List Char} (hb : ∃ c ∈ body, isBlank c = false) (hq : '"' ∉ body) :
    Lexes ('"' :: (body ++ ['"'])) [.phrase (String.ofList body)] := by
  intro rest _
  have inked : body.all isBlank = false := by
    rw [List.all_eq_false]
    obtain ⟨c, hc, hblank⟩ := hb
    exact ⟨c, hc, by simp [hblank]⟩
  rw [List.cons_append, List.append_assoc, List.singleton_append, tokenize_phrase hq, Tokens.consPhrase, inked]
  rfl

/-- Does a separator put tokens between those of the texts that it joins? -/
def Links (separator : List Char) (us : List Token) : Prop :=
  ∀ ⦃s s' ts ts'⦄, Lexes s ts → Lexes s' ts' → Lexes (s ++ separator ++ s') (ts ++ us ++ ts')

theorem links_space : Links [' '] [] := by
  intro s s' ts ts' h h' rest hr
  have blank : isBlank ' ' = true := by decide
  rw [List.append_assoc, List.append_assoc, h _ (by simp [blank]), List.singleton_append, tokenize_blank blank,
    h' rest hr]
  simp

theorem links_word (hne : w ≠ []) (hw : ∀ c ∈ w, inWord c = true) :
    Links (' ' :: (w ++ [' '])) [Token.classify w] := by
  intro s s' ts ts' h h'
  have both := links_space (links_space h (lexes_word hne hw)) h'
  simpa using both

/-- Joined texts fall into their tokens, with those of the separator between. -/
theorem lexes_joinWith {separator : List Char} {us : List Token} (link : Links separator us) :
    ∀ {texts : List (List Char)} {tokens : List (List Token)}, List.Forall₂ Lexes texts tokens →
      Lexes (joinWith separator texts) (us.intercalate tokens)
  | [], _, .nil => lexes_nil
  | [s], _, .cons h .nil => by simpa using h
  | s :: s' :: texts, _, .cons h (.cons h' rest) => by
    rw [joinWith_cons separator s (List.cons_ne_nil s' texts), List.intercalate_cons_cons]
    exact link h (lexes_joinWith link (.cons h' rest))

end Concordance.Query
