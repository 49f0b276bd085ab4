/-
What taking the pairs out of a token list leaves. Tokens without NEAR pass, two operands around a NEAR become
a pair, and no AND, OR or NOT is ever lost. A NEAR takes a pair if an operand follows it and a left operand is
at hand; one is at hand after an operand, and after any NEAR, whose right operand is shared if it took a pair
and which is a word itself if it did not.
-/
import Concordance.Query.Translate
import Mathlib.Tactic

namespace Concordance.Query

namespace Token

def isNear : Token → Bool
  | near _ _ => true
  | _ => false

/-- One of AND, OR and NOT. -/
def isConnective (t : Token) : Bool := t.isAnd || t.isOr || t.isNot

variable {t : Token}

theorem isNear_of_isOperand (h : t.isOperand = true) : t.isNear = false := by
  cases t <;> first | rfl | cases h

theorem isConnective_of_isOperand (h : t.isOperand = true) : t.isConnective = false := by
  cases t <;> first | rfl | cases h

theorem of_isOperand (h : t.isOperand = true) : t.isAnd = false ∧ t.isOr = false ∧ t.isNot = false := by
  simpa [isConnective, and_assoc] using isConnective_of_isOperand h

end Token

variable {before rest ts : List Token} {chained : Option Term} {t : Token}

/-! ## What passes and what makes a pair -/

theorem extract_cons (h : t.isNear = false) :
    extract before chained (t :: rest) = extract (t :: before) none rest := by
  cases t <;> first | rfl | cases h

theorem extract_append (h : ∀ t ∈ ts, t.isNear = false) (before rest : List Token) :
    extract before none (ts ++ rest) = extract (ts.reverse ++ before) none rest := by
  induction ts generalizing before with
  | nil => rfl
  | cons t ts ih =>
    rw [List.cons_append, extract_cons (h t List.mem_cons_self), ih fun x hx => h x (List.mem_cons_of_mem t hx)]
    simp

/-- Tokens without NEAR all stay, also behind a pair. -/
theorem extract_of_no_near (h : ∀ t ∈ ts, t.isNear = false) :
    extract before chained ts = ⟨before.reverse ++ ts, [], []⟩ := by
  cases ts with
  | nil => simp [extract]
  | cons t ts =>
    have pass := extract_append (fun x hx => h x (List.mem_cons_of_mem t hx)) (t :: before) []
    rw [List.append_nil] at pass
    rw [extract_cons (h t List.mem_cons_self), pass]
    simp [extract]

theorem extract_pair {first second : Token} (hf : first.isOperand = true) (hs : second.isOperand = true) (d : UInt32)
    (s : String) :
    extract before chained (first :: .near d s :: second :: rest) =
      (extract before (some second.term) rest).addPair ⟨first.term, second.term, d⟩ := by
  rw [extract_cons (Token.isNear_of_isOperand hf), extract, if_pos hs]
  simp [leftOperand?, hf]

/-! ## NEARs without a pair -/

/--
The distances of the NEARs that take no pair. `ready` says whether a left operand is at hand for a NEAR that
comes next.
-/
def looseFrom (ready : Bool) : List Token → List UInt32
  | [] => []
  | .near d _ :: rest =>
    if ready && rest.head?.any Token.isOperand then looseFrom true rest else d :: looseFrom true rest
  | t :: rest => looseFrom t.isOperand rest

theorem looseFrom_cons (h : t.isNear = false) (ready : Bool) :
    looseFrom ready (t :: rest) = looseFrom t.isOperand rest := by
  cases t <;> first | rfl | cases h

theorem looseFrom_cons_operand (h : t.isOperand = true) (ready : Bool) :
    looseFrom ready (t :: rest) = looseFrom true rest := by
  rw [looseFrom_cons (Token.isNear_of_isOperand h), h]

theorem dangling_extract (before : List Token) (chained : Option Term) (ts : List Token) :
    (extract before chained ts).dangling = looseFrom (leftOperand? chained before).isSome ts := by
  induction before, chained, ts using extract.induct with
  | case1 before chained d s right rest hr first before' hleft ih =>
    have step : extract before chained (.near d s :: right :: rest) =
        (extract before' (some right.term) rest).addPair ⟨first, right.term, d⟩ := by
      rw [extract, if_pos hr, hleft]
    have shared : (leftOperand? (some right.term) before').isSome = true := rfl
    rw [step, hleft, Option.isSome_some, looseFrom]
    simp only [Extraction.addPair, List.head?_cons, Option.any_some, hr, Bool.and_self, if_true]
    rw [ih, shared, looseFrom_cons_operand hr]
  | case2 before chained d s right rest hr hleft ih =>
    have step : extract before chained (.near d s :: right :: rest) =
        (extract (right :: .word s :: before) none rest).addDangling d := by
      rw [extract, if_pos hr, hleft]
    have ready : (leftOperand? none (right :: .word s :: before)).isSome = true := by simp [leftOperand?, hr]
    rw [step, hleft, Option.isSome_none, looseFrom, Bool.false_and, if_neg Bool.false_ne_true,
      looseFrom_cons_operand hr]
    simp only [Extraction.addDangling]
    rw [ih, ready]
  | case3 before chained d s right rest hr ih =>
    have step : extract before chained (.near d s :: right :: rest) =
        (extract (.word s :: before) none (right :: rest)).addDangling d := by
      rw [extract, if_neg hr]
    have ready : (leftOperand? none (.word s :: before)).isSome = true := rfl
    have none : (some right).any Token.isOperand = false := by simpa using hr
    rw [step, looseFrom, List.head?_cons, none, Bool.and_false, if_neg Bool.false_ne_true]
    simp only [Extraction.addDangling]
    rw [ih, ready]
  | case4 before chained d s => simp [extract, looseFrom]
  | case5 before chained t rest h h' ih =>
    have other : t.isNear = false := by
      cases t <;> try rfl
      cases rest with
      | nil => exact (h' _ _ rfl rfl).elim
      | cons right rest => exact (h _ _ _ _ rfl rfl).elim
    have ready : (leftOperand? none (t :: before)).isSome = t.isOperand := by
      cases ht : t.isOperand <;> simp [leftOperand?, ht]
    rw [extract_cons other, looseFrom_cons other, ih, ready]
  | case6 before chained => simp [extract, looseFrom]

/-! ## Connectives -/

theorem filter_isConnective_leftOperand? {first : Term} {before' : List Token}
    (h : leftOperand? chained before = some (first, before')) :
    before'.filter Token.isConnective = before.filter Token.isConnective := by
  unfold leftOperand? at h
  split at h
  · cases h
    rfl
  · rename_i last earlier
    split at h
    · rename_i operand
      cases h
      simp [Token.isConnective_of_isOperand operand]
    · cases h
  · cases h

/-- Every AND, OR and NOT stays, in its order. -/
theorem filter_isConnective_extract (before : List Token) (chained : Option Term) (ts : List Token) :
    (extract before chained ts).stream.filter Token.isConnective =
      (before.reverse ++ ts).filter Token.isConnective := by
  have word (s : String) : (Token.word s).isConnective = false := rfl
  have near (d : UInt32) (s : String) : (Token.near d s).isConnective = false := rfl
  fun_induction extract before chained ts with
  | case1 before chained d s right rest hr first before' hleft ih =>
    simp only [Extraction.addPair]
    rw [ih]
    simp [near, Token.isConnective_of_isOperand hr, List.filter_reverse, filter_isConnective_leftOperand? hleft]
  | case2 before chained d s right rest hr hleft ih =>
    simp only [Extraction.addDangling]
    rw [ih]
    simp [word, near, Token.isConnective_of_isOperand hr]
  | case3 before chained d s right rest hr ih =>
    simp only [Extraction.addDangling]
    rw [ih]
    simp [word, near]
  | case4 before chained d s => simp [word, near]
  | case5 before chained t rest _ _ ih =>
    rw [ih]
    simp
  | case6 before chained => simp

end Concordance.Query
