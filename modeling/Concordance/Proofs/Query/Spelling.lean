/-
Plans spelled as queries. A plan whose terms can be spelled is read back from its spelling: the terms with their
connective, the pairs and the exclusions each become their own tokens, NEAR takes the pairs out of the middle,
and what is left is cut at NOT and at the connective into the tokens of one term each.
-/
import Concordance.Proofs.Query.Lexing
import Concordance.Proofs.Query.Pairs

namespace Concordance

open Text Query

/-! ## Plans that can be spelled -/

/-- A term that its spelling can stand for: a phrase that is not blank, or plain words between single spaces. -/
inductive Term.Spellable : Term → Prop
  | phrase {s : List Char} (ink : ∃ c ∈ s, isBlank c = false) (no_quote : '"' ∉ s) : Spellable ⟨String.ofList s, true⟩
  | words {ws : List (List Char)} (some : ws ≠ []) (plain : ∀ w ∈ ws, IsPlainWord w) :
    Spellable ⟨String.ofList (joinWith [' '] ws), false⟩

/-- A term that can stand beside a NEAR: a phrase or a single word. -/
structure Term.SpellableOperand (t : Term) : Prop where
  spellable : t.Spellable
  single : t.quoted = false → IsPlainWord t.text.toList

/-- A plan with terms that can be spelled. It has a connective exactly if there are terms to connect. -/
structure Plan.Spellable (p : Plan) : Prop where
  primary : ∀ t ∈ p.primary, t.Spellable
  first : ∀ q ∈ p.proximity, q.first.SpellableOperand
  second : ∀ q ∈ p.proximity, q.second.SpellableOperand
  exclusions : ∀ t ∈ p.exclusions, t.Spellable
  single : p.combinator = .single ↔ p.primary.length ≤ 1

/-! ## Spelling -/

def ProximityPair.spelling (q : ProximityPair) : String :=
  q.first.spelling ++ " NEAR/" ++ decimalText q.maxWords.toNat ++ " " ++ q.second.spelling

/-- The word between terms that a combinator joins. -/
def Combinator.word : Combinator → String
  | .or => "OR"
  | _ => "AND"

/-- The primary terms joined by the connective. -/
def Plan.primarySpelling (p : Plan) : String :=
  String.ofList (joinWith (" " ++ p.combinator.word ++ " ").toList (p.primary.map (·.spelling.toList)))

/-- The primary terms, each pair and each exclusion behind a NOT, separated by spaces. -/
def Plan.spelling (p : Plan) : String :=
  spaced ((if p.primary = [] then [] else [p.primarySpelling]) ++ p.proximity.map (·.spelling) ++
    p.exclusions.map ("NOT " ++ ·.spelling))

/-! ## The tokens of a plan -/

/-- The tokens of a spelled term. -/
def Term.tokens (t : Term) : List Token :=
  if t.quoted then [.phrase t.text] else (words t.text.toList).map (.word <| String.ofList ·)

/-- The token between terms that a combinator joins. -/
def Combinator.token : Combinator → Token
  | .or => .or "OR"
  | _ => .and "AND"

def ProximityPair.tokens (q : ProximityPair) : List Token :=
  q.first.tokens ++ .near q.maxWords ("NEAR/" ++ decimalText q.maxWords.toNat) :: q.second.tokens

def Plan.primaryTokens (p : Plan) : List Token := [p.combinator.token].intercalate (p.primary.map Term.tokens)

def Plan.exclusionTokens (p : Plan) : List Token := p.exclusions.flatMap (.not "NOT" :: ·.tokens)

def Plan.tokens (p : Plan) : List Token :=
  p.primaryTokens ++ p.proximity.flatMap ProximityPair.tokens ++ p.exclusionTokens

section

variable {α : Type} (us ts : List α)

theorem intercalate_cons (l : List (List α)) : us.intercalate (ts :: l) = ts ++ l.flatMap (us ++ ·) := by
  induction l generalizing ts with
  | nil => simp
  | cons ts' l ih =>
    rw [List.intercalate_cons_cons, ih]
    simp

theorem intercalate_empty (l : List (List α)) : ([] : List α).intercalate l = l.flatten := by
  cases l with
  | nil => rfl
  | cons ts l => simp [intercalate_cons]

end

namespace Term

variable {t : Term}

theorem tokens_phrase (s : String) : tokens ⟨s, true⟩ = [.phrase s] := rfl

theorem tokens_words {ws : List (List Char)} (h : ∀ w ∈ ws, IsPlainWord w) :
    tokens ⟨String.ofList (joinWith [' '] ws), false⟩ = ws.map (.word <| String.ofList ·) := by
  unfold tokens
  rw [if_neg Bool.false_ne_true, String.toList_ofList,
    words_joinWith (fun w hw => (h w hw).nonempty) fun w hw => (h w hw).no_blank]

theorem Spellable.tokens_ne_nil (h : t.Spellable) : t.tokens ≠ [] := by
  cases h with
  | phrase ink no_quote => simp [tokens_phrase]
  | words some plain => simpa [tokens_words plain] using some

theorem Spellable.isOperand (h : t.Spellable) : ∀ x ∈ t.tokens, x.isOperand = true := by
  cases h with
  | phrase ink no_quote => simp [tokens_phrase, Token.isOperand]
  | words some plain => simp [tokens_words plain, Token.isOperand]

theorem Spellable.lexes (h : t.Spellable) : Lexes t.spelling.toList t.tokens := by
  cases h with
  | @phrase s ink no_quote =>
    have spelled : (spelling ⟨String.ofList s, true⟩).toList = '"' :: (s ++ ['"']) := by simp [spelling]
    rw [spelled, tokens_phrase]
    exact lexes_phrase ink no_quote
  | @words ws some plain =>
    have spelled : (spelling ⟨String.ofList (joinWith [' '] ws), false⟩).toList = joinWith [' '] ws := by
      simp [spelling]
    have each : List.Forall₂ Lexes ws (ws.map fun w => [.word (String.ofList w)]) := by
      rw [List.forall₂_map_right_iff, List.forall₂_same]
      exact fun w hw => lexes_plainWord (plain w hw)
    have whole := lexes_joinWith links_space each
    rw [intercalate_empty, ← List.flatMap_def, ← List.map_eq_flatMap] at whole
    rwa [spelled, tokens_words plain]

/-- The tokens of a term stand for the term. -/
theorem Spellable.runTerm? (h : t.Spellable) : Query.runTerm? t.tokens = some t := by
  cases h with
  | phrase ink no_quote => rfl
  | @words ws some plain =>
    rw [tokens_words plain]
    match ws, some with
    | [w], _ => simp [Query.runTerm?, Token.term, Token.text]
    | w :: w' :: ws, _ => simp [Query.runTerm?, spaced, Token.text, Function.comp_def]

theorem filterMap_runTerm? {ts : List Term} (h : ∀ t ∈ ts, t.Spellable) :
    (ts.map tokens).filterMap Query.runTerm? = ts := by
  have each : ∀ t ∈ ts, (Query.runTerm? ∘ tokens) t = some t := fun t ht => (h t ht).runTerm?
  rw [List.filterMap_map, List.filterMap_congr each]
  exact List.filterMap_some

/-- An operand is a single token. -/
theorem SpellableOperand.exists_token (h : t.SpellableOperand) :
    ∃ x, t.tokens = [x] ∧ x.isOperand = true ∧ x.term = t := by
  obtain ⟨s, quoted⟩ := t
  cases quoted with
  | true => exact ⟨.phrase s, rfl, rfl, rfl⟩
  | false =>
    have word : IsPlainWord s.toList := h.single rfl
    have single := tokens_words (List.forall_mem_singleton.2 word)
    exact ⟨.word s, by simpa using single, rfl, rfl⟩

end Term

/-! ## Lexing a plan -/

theorem Combinator.links (c : Combinator) : Links (" " ++ c.word ++ " ").toList [c.token] := by
  have some : c.word.toList ≠ [] := by cases c <;> decide
  have inside : c.word.toList.all inWord = true := by cases c <;> decide
  have classified : Token.classify c.word.toList = c.token := by cases c <;> rfl
  have spelled : (" " ++ c.word ++ " ").toList = ' ' :: (c.word.toList ++ [' ']) := by cases c <;> rfl
  rw [spelled, ← classified]
  exact links_word some (List.all_eq_true.1 inside)

theorem ProximityPair.lexes {q : ProximityPair} (hf : q.first.Spellable) (hs : q.second.Spellable) :
    Lexes q.spelling.toList q.tokens := by
  have whole := links_space (links_space hf.lexes (lexes_near q.maxWords)) hs.lexes
  simpa [spelling, tokens, decimalText] using whole

theorem lexes_exclusion {t : Term} (h : t.Spellable) :
    Lexes ("NOT " ++ t.spelling).toList (.not "NOT" :: t.tokens) := by
  have keyword : Lexes ['N', 'O', 'T'] [.not "NOT"] := lexes_word (by decide) (List.all_eq_true.1 (by decide))
  have whole := links_space keyword h.lexes
  simpa using whole

namespace Plan

variable {p : Plan}

theorem Spellable.lexes_primary (h : p.Spellable) : Lexes p.primarySpelling.toList p.primaryTokens := by
  have each : List.Forall₂ Lexes (p.primary.map (·.spelling.toList)) (p.primary.map Term.tokens) := by
    rw [List.forall₂_map_left_iff, List.forall₂_map_right_iff, List.forall₂_same]
    exact fun t ht => (h.primary t ht).lexes
  have whole := lexes_joinWith p.combinator.links each
  rwa [primarySpelling, String.toList_ofList]

theorem Spellable.lexes (h : p.Spellable) : Lexes p.spelling.toList p.tokens := by
  let parts : List (List Token) :=
    (if p.primary = [] then [] else [p.primaryTokens]) ++ p.proximity.map ProximityPair.tokens ++
      p.exclusions.map (.not "NOT" :: ·.tokens)
  let texts : List String :=
    (if p.primary = [] then [] else [p.primarySpelling]) ++ p.proximity.map (·.spelling) ++
      p.exclusions.map ("NOT " ++ ·.spelling)
  have each : List.Forall₂ (fun s ts => Lexes s.toList ts) texts parts := by
    refine List.rel_append (List.rel_append ?_ ?_) ?_
    · split
      · exact .nil
      · exact .cons h.lexes_primary .nil
    · rw [List.forall₂_map_left_iff, List.forall₂_map_right_iff, List.forall₂_same]
      exact fun q hq => q.lexes (h.first q hq).spellable (h.second q hq).spellable
    · rw [List.forall₂_map_left_iff, List.forall₂_map_right_iff, List.forall₂_same]
      exact fun t ht => lexes_exclusion (h.exclusions t ht)
  have whole := lexes_joinWith links_space (List.forall₂_map_left_iff.2 each)
  have all : ([] : List Token).intercalate parts = p.tokens := by
    have primary : (if p.primary = [] then [] else [p.primaryTokens]).flatten = p.primaryTokens := by
      split
      · rename_i none
        simp [primaryTokens, none]
      · simp
    rw [intercalate_empty, List.flatten_append, List.flatten_append, primary, ← List.flatMap_def, ← List.flatMap_def]
    rfl
  rw [all] at whole
  rwa [spelling, spaced, String.toList_ofList]

end Plan

/-! ## Reading the tokens back -/

/-- The pairs in the middle are taken out, each from its own three tokens. -/
theorem extract_pairs {before ts : List Token} (hts : ∀ t ∈ ts, t.isNear = false) {pairs : List ProximityPair}
    (h : ∀ q ∈ pairs, q.first.SpellableOperand ∧ q.second.SpellableOperand) (chained : Option Term) :
    extract before chained (pairs.flatMap ProximityPair.tokens ++ ts) = ⟨before.reverse ++ ts, pairs, []⟩ := by
  induction pairs generalizing chained with
  | nil => exact extract_of_no_near hts
  | cons q pairs ih =>
    obtain ⟨hf, hs⟩ := h q List.mem_cons_self
    obtain ⟨x, first, hx, hxt⟩ := hf.exists_token
    obtain ⟨y, second, hy, hyt⟩ := hs.exists_token
    have rest := ih (fun r hr => h r (List.mem_cons_of_mem q hr)) (some y.term)
    have shape : (q :: pairs).flatMap ProximityPair.tokens ++ ts =
        x :: .near q.maxWords ("NEAR/" ++ decimalText q.maxWords.toNat) :: y ::
          (pairs.flatMap ProximityPair.tokens ++ ts) := by
      simp [ProximityPair.tokens, first, second]
    rw [shape, extract_pair hx hy, rest, hxt, hyt]
    rfl

theorem connect_of_operands {ts : List Token} (h : ∀ x ∈ ts, x.isOperand = true) :
    connect ts = ((runTerm? ts).toList, .single, false) := by
  have hasAnd : ts.any Token.isAnd = false := by
    rw [List.any_eq_false]
    exact fun x hx => by simp [(Token.of_isOperand (h x hx)).1]
  have hasOr : ts.any Token.isOr = false := by
    rw [List.any_eq_false]
    exact fun x hx => by simp [(Token.of_isOperand (h x hx)).2.1]
  simp [connect, hasAnd, hasOr]

namespace Plan

variable {p : Plan}

theorem Spellable.mem_primaryTokens (h : p.Spellable) {x : Token} (hx : x ∈ p.primaryTokens) :
    x.isOperand = true ∨ x = p.combinator.token := by
  have operand {t : Term} (ht : t ∈ p.primary) (hx : x ∈ t.tokens) : x.isOperand = true :=
    (h.primary t ht).isOperand x hx
  unfold primaryTokens at hx
  cases hp : p.primary with
  | nil =>
    rw [hp] at hx
    cases hx
  | cons t ts =>
    rw [hp] at operand
    rw [hp, List.map_cons, intercalate_cons, List.mem_append, List.mem_flatMap] at hx
    rcases hx with hx | ⟨tokens, htokens, hx⟩
    · exact .inl (operand List.mem_cons_self hx)
    · obtain ⟨t', ht', rfl⟩ := List.mem_map.1 htokens
      rcases List.mem_cons.1 hx with rfl | hx
      · exact .inr rfl
      · exact .inl (operand (List.mem_cons_of_mem t ht') hx)

/-- What is false of operands and of the connective is false of all tokens of the primary terms. -/
theorem Spellable.forall_primaryTokens (h : p.Spellable) {q : Token → Bool} (hq : q p.combinator.token = false)
    (free : ∀ x, Token.isOperand x = true → q x = false) : ∀ x ∈ p.primaryTokens, q x = false := by
  intro x hx
  rcases h.mem_primaryTokens hx with operand | rfl
  · exact free x operand
  · exact hq

theorem Spellable.isNear_primaryTokens (h : p.Spellable) : ∀ x ∈ p.primaryTokens, x.isNear = false :=
  h.forall_primaryTokens (by cases p.combinator <;> rfl) fun _ => Token.isNear_of_isOperand

theorem Spellable.isNot_primaryTokens (h : p.Spellable) : ∀ x ∈ p.primaryTokens, x.isNot = false :=
  h.forall_primaryTokens (by cases p.combinator <;> rfl) fun _ hx => (Token.of_isOperand hx).2.2

theorem Spellable.isNear_exclusionTokens (h : p.Spellable) : ∀ x ∈ p.exclusionTokens, x.isNear = false := by
  intro x hx
  obtain ⟨t, ht, hx⟩ := List.mem_flatMap.1 hx
  rcases List.mem_cons.1 hx with rfl | hx
  · rfl
  · exact Token.isNear_of_isOperand ((h.exclusions t ht).isOperand x hx)

theorem Spellable.extract_tokens (h : p.Spellable) :
    extract [] none p.tokens = ⟨p.primaryTokens ++ p.exclusionTokens, p.proximity, []⟩ := by
  rw [tokens, List.append_assoc, extract_append h.isNear_primaryTokens,
    extract_pairs h.isNear_exclusionTokens fun q hq => ⟨h.first q hq, h.second q hq⟩]
  simp

/-- The tokens of joined terms are cut at the connective into those of each term. -/
theorem Spellable.termsBetween_primaryTokens (h : p.Spellable) (some : p.primary ≠ []) {q : Token → Bool}
    (hq : q p.combinator.token = true) (free : ∀ x, Token.isOperand x = true → q x = false) :
    termsBetween q p.primaryTokens = p.primary := by
  obtain ⟨t, ts, hp⟩ := List.exists_cons_of_ne_nil some
  have operand : ∀ u ∈ t :: ts, ∀ x ∈ u.tokens, q x = false := by
    intro u hu x hx
    rw [← hp] at hu
    exact free x ((h.primary u hu).isOperand x hx)
  have cut : pieces q p.primaryTokens = p.primary.map Term.tokens := by
    rw [primaryTokens, hp, List.map_cons, intercalate_cons]
    refine pieces_append_flatMap q hq (operand t List.mem_cons_self) ?_
    intro part hpart
    obtain ⟨u, hu, rfl⟩ := List.mem_map.1 hpart
    exact operand u (List.mem_cons_of_mem t hu)
  rw [termsBetween, cut]
  exact Term.filterMap_runTerm? h.primary

theorem Spellable.token_mem_primaryTokens (h : p.Spellable) (hc : p.combinator ≠ .single) :
    1 < p.primary.length ∧ p.combinator.token ∈ p.primaryTokens := by
  have many : 1 < p.primary.length := by
    rw [Ne, h.single] at hc
    omega
  refine ⟨many, ?_⟩
  unfold primaryTokens
  match p.primary, many with
  | t :: t' :: ts, _ =>
    rw [List.map_cons, List.map_cons, List.intercalate_cons_cons]
    simp

theorem Spellable.connect_primaryTokens (h : p.Spellable) :
    connect p.primaryTokens = (p.primary, p.combinator, false) := by
  have noOther (q : Token → Bool) (hq : q p.combinator.token = false)
      (free : ∀ x, Token.isOperand x = true → q x = false) : p.primaryTokens.any q = false :=
    List.any_eq_false.2 fun x hx => by simp [h.forall_primaryTokens hq free x hx]
  have noAnd (x : Token) (hx : x.isOperand = true) : x.isAnd = false := (Token.of_isOperand hx).1
  have noOr (x : Token) (hx : x.isOperand = true) : x.isOr = false := (Token.of_isOperand hx).2.1
  cases hc : p.combinator with
  | single =>
    have few := h.single.1 hc
    match hp : p.primary, few with
    | [], _ =>
      rw [primaryTokens, hp]
      rfl
    | [t], _ =>
      have ht : t.Spellable := h.primary t (by simp [hp])
      have alone : p.primaryTokens = t.tokens := by simp [primaryTokens, hp]
      rw [alone, connect_of_operands ht.isOperand, ht.runTerm?]
      rfl
  | and =>
    obtain ⟨many, own⟩ := h.token_mem_primaryTokens (by simp [hc])
    have token : p.combinator.token = .and "AND" := by rw [hc]; rfl
    rw [token] at own
    have hasAnd : p.primaryTokens.any Token.isAnd = true := List.any_eq_true.2 ⟨_, own, rfl⟩
    have hasOr : p.primaryTokens.any Token.isOr = false := noOther _ (by rw [token]; rfl) noOr
    have terms := h.termsBetween_primaryTokens (List.ne_nil_of_length_pos (by omega)) (by rw [token]; rfl) noAnd
    simp [connect, hasAnd, hasOr, terms, many]
  | or =>
    obtain ⟨many, own⟩ := h.token_mem_primaryTokens (by simp [hc])
    have token : p.combinator.token = .or "OR" := by rw [hc]; rfl
    rw [token] at own
    have hasAnd : p.primaryTokens.any Token.isAnd = false := noOther _ (by rw [token]; rfl) noAnd
    have hasOr : p.primaryTokens.any Token.isOr = true := List.any_eq_true.2 ⟨_, own, rfl⟩
    have terms := h.termsBetween_primaryTokens (List.ne_nil_of_length_pos (by omega)) (by rw [token]; rfl) noOr
    simp [connect, hasAnd, hasOr, terms, many]

theorem Spellable.planOf_tokens (h : p.Spellable) :
    planOf ⟨p.tokens, false⟩ =
      { p with warnings := if p.primary = [] ∧ p.exclusions ≠ [] then [.leadingNot] else [] } := by
  have cut : pieces Token.isNot (p.primaryTokens ++ p.exclusionTokens) =
      p.primaryTokens :: p.exclusions.map Term.tokens := by
    have parts : p.exclusionTokens = (p.exclusions.map Term.tokens).flatMap (.not "NOT" :: ·) := by
      rw [exclusionTokens, List.flatMap_map]
    rw [parts]
    refine pieces_append_flatMap Token.isNot rfl h.isNot_primaryTokens ?_
    intro part hpart x hx
    obtain ⟨t, ht, rfl⟩ := List.mem_map.1 hpart
    exact (Token.of_isOperand ((h.exclusions t ht).isOperand x hx)).2.2
  have leading : (p.primaryTokens ++ p.exclusionTokens).head?.any Token.isNot = true ↔
      p.primary = [] ∧ p.exclusions ≠ [] := by
    cases hp : p.primary with
    | nil =>
      have none : p.primaryTokens = [] := by simp [primaryTokens, hp]
      rw [none, List.nil_append, exclusionTokens]
      cases p.exclusions <;> simp [Token.isNot]
    | cons t ts =>
      have some : p.primaryTokens ≠ [] := by
        have first := (h.primary t (by simp [hp])).tokens_ne_nil
        simp [primaryTokens, hp, intercalate_cons, first]
      obtain ⟨x, rest, hx⟩ := List.exists_cons_of_ne_nil some
      have other : x.isNot = false := h.isNot_primaryTokens x (by simp [hx])
      simp [hx, other]
  unfold planOf
  simp only [h.extract_tokens, cut, h.connect_primaryTokens, Term.filterMap_runTerm? h.exclusions, leading]
  simp

end Plan

/-! ## Reading a plan back -/

/--
Reading undoes spelling. Of the plan's own warnings nothing is spelled; a plan that only excludes is warned
about.
-/
theorem translate_spelling {p : Plan} (h : p.Spellable) :
    Query.translate p.spelling =
      { p with warnings := if p.primary = [] ∧ p.exclusions ≠ [] then [.leadingNot] else [] } := by
  rw [Query.translate, h.lexes.tokenize, h.planOf_tokens]

/-- A plan with terms of both kinds, a pair and an exclusion. -/
def voyage : Plan where
  primary := [⟨"flight log", false⟩, ⟨"salt AND pepper", true⟩]
  combinator := .or
  proximity := [⟨⟨"island", false⟩, ⟨"grand jury", true⟩, 5⟩]
  exclusions := [⟨"boat", false⟩]
  warnings := []

theorem spellable_voyage : voyage.Spellable := by
  have word {w : List Char} (h : IsPlainWord w) : Term.SpellableOperand ⟨String.ofList w, false⟩ :=
    ⟨.words (List.cons_ne_nil w []) (List.forall_mem_singleton.2 h), fun _ => by rwa [String.toList_ofList]⟩
  have phrase {s : List Char} (ink : s.all isBlank = false) (no_quote : '"' ∉ s) :
      Term.SpellableOperand ⟨String.ofList s, true⟩ := by
    obtain ⟨c, hc, hblank⟩ := List.all_eq_false.1 ink
    exact ⟨.phrase ⟨c, hc, by simpa using hblank⟩ no_quote, nofun⟩
  have flight : IsPlainWord "flight".toList := by decide
  have log : IsPlainWord "log".toList := by decide
  have flightLog : Term.Spellable ⟨"flight log", false⟩ :=
    .words (List.cons_ne_nil _ _) (List.forall_mem_cons.2 ⟨flight, List.forall_mem_singleton.2 log⟩)
  have saltAndPepper : Term.SpellableOperand ⟨"salt AND pepper", true⟩ :=
    phrase (s := "salt AND pepper".toList) (by decide) (by decide)
  have island : Term.SpellableOperand ⟨"island", false⟩ := word (w := "island".toList) (by decide)
  have grandJury : Term.SpellableOperand ⟨"grand jury", true⟩ :=
    phrase (s := "grand jury".toList) (by decide) (by decide)
  have boat : Term.SpellableOperand ⟨"boat", false⟩ := word (w := "boat".toList) (by decide)
  refine ⟨?_, ?_, ?_, ?_, by decide⟩
  · simpa [voyage] using ⟨flightLog, saltAndPepper.spellable⟩
  · simpa [voyage] using island
  · simpa [voyage] using grandJury
  · simpa [voyage] using boat.spellable

theorem translate_voyage :
    voyage.spelling = "flight log OR \"salt AND pepper\" island NEAR/5 \"grand jury\" NOT boat" ∧
      Query.translate voyage.spelling = voyage :=
  ⟨by decide +kernel, translate_spelling spellable_voyage⟩

end Concordance
