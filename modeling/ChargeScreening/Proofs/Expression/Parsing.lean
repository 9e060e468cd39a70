import ChargeScreening.Expression.Parser
import ChargeScreening.Proofs.Expression.Rendering

/-!
# Reading the canonical text

What the reader makes of the tokens of the canonical text. Given that paths are words and literals
fit their operators, a single thing can still go wrong: a formula may have too few or too many
operands. So each statement is an equation with that check on its right side, and both "it reads
back" and "whatever it reads as is the expression" follow from it.

## Main definitions

* `Expression.reread` — the expression with every number as its text reads
* `Operand.checkCount`, `checkCounts` — the count of operands, as the reader reports it

## Main results

* `parse_render` — what the text of an expression reads as
-/

namespace ChargeScreening

/-! ### Numbers as their text reads -/

/-- The formula operand with its number as the text reads. -/
def FormulaArg.reread : FormulaArg → FormulaArg
  | .field path => .field path
  | .constant x => .constant (Decimal.reread x)

/-- The operand with its numbers as their text reads. -/
def Operand.reread : Operand → Operand
  | .field path => .field path
  | .formula op args => .formula op (args.map FormulaArg.reread)

/-- The scalar with its number as the text reads. -/
def Literal.rereadScalar : Literal → Literal
  | .number x => .number (Decimal.reread x)
  | value => value

/-- The literal with its numbers as their text reads. -/
def Literal.reread : Literal → Literal
  | .list items => .list (items.map Literal.rereadScalar)
  | value => value.rereadScalar

/-- The clause with its numbers as their text reads. -/
def Clause.reread (c : Clause) : Clause :=
  { c with operand := c.operand.reread, value := c.value.reread }

/-- The expression with its numbers as their text reads. -/
def Expression.reread (e : Expression) : Expression :=
  ⟨e.clauses.map Clause.reread⟩

/-! ### Operands -/

/-- The check of the count of operands. A field passes. -/
def Operand.checkCount : Operand → Except ParseError Unit
  | .field _ => .ok ()
  | .formula op args => checkArity op args.length

theorem FormulaArg.formulaArg?_kind (a : FormulaArg) : a.kind.formulaArg? = some a.reread := by
  cases a <;> rfl

theorem readArgs_kinds {args : List FormulaArg} (hne : args ≠ []) {ts : List Token}
    {others : List TokenKind}
    (h : ts.map Token.kind
      = List.intercalate [.comma] (args.map fun a => [a.kind]) ++ .rightParen :: others) :
    ∃ rest, readArgs ts = .ok (args.map FormulaArg.reread, rest)
      ∧ rest.map Token.kind = others := by
  induction args generalizing ts with
  | nil => exact absurd rfl hne
  | cons a args ih =>
    cases args with
    | nil =>
      obtain ⟨t, ts, rfl, ht, hts⟩ := List.map_eq_cons_iff.mp h
      obtain ⟨s, rest, rfl, hs, hrest⟩ := List.map_eq_cons_iff.mp hts
      refine ⟨rest, ?_, hrest⟩
      simp only [readArgs, ht, hs, a.formulaArg?_kind, List.map_cons, List.map_nil]
    | cons b args =>
      obtain ⟨t, ts, rfl, ht, hts⟩ := List.map_eq_cons_iff.mp h
      obtain ⟨s, ts, rfl, hs, hargs⟩ := List.map_eq_cons_iff.mp hts
      obtain ⟨rest, hread, hrest⟩ := ih (List.cons_ne_nil b args) hargs
      refine ⟨rest, ?_, hrest⟩
      simp only [readArgs, ht, hs, a.formulaArg?_kind, hread, Except.map, List.map_cons]

theorem MathOp.ofWord?_word (op : MathOp) : MathOp.ofWord? op.word = some op := by
  cases op <;> decide

theorem Operator.ofWord?_word (op : Operator) : Operator.ofWord? op.word = some op := by
  cases op <;> decide

theorem Connective.ofWord?_word (joint : Connective) :
    Connective.ofWord? joint.word = some joint := by
  cases joint <;> decide

/-- The operands of a formula behind its opening parenthesis, be they none. -/
theorem readCall_kinds (args : List FormulaArg) {ts : List Token} {others : List TokenKind}
    (h : ts.map Token.kind
      = List.intercalate [.comma] (args.map fun a => [a.kind]) ++ .rightParen :: others) :
    ∃ rest, readCall ts = .ok (args.map FormulaArg.reread, rest)
      ∧ rest.map Token.kind = others := by
  cases args with
  | nil =>
    obtain ⟨⟨kind, position⟩, rest, rfl, hkind, hrest⟩ := List.map_eq_cons_iff.mp h
    cases hkind
    exact ⟨rest, rfl, hrest⟩
  | cons a args =>
    obtain ⟨rest, hread, hrest⟩ := readArgs_kinds (List.cons_ne_nil a args) h
    refine ⟨rest, ?_, hrest⟩
    rw [readCall, hread]
    -- the first operand is not a closing parenthesis
    rintro position left rfl
    cases args <;> cases a <;> simp [FormulaArg.kind] at h

/-- An operand in front of anything but a parenthesis. -/
theorem readOperand_kinds (operand : Operand) {ts : List Token} {others : List TokenKind}
    (h : ts.map Token.kind = operand.kinds ++ others)
    (hnext : others.head? ≠ some .leftParen) :
    ∃ rest, readOperand ts = operand.checkCount.map (fun _ => (operand.reread, rest))
      ∧ rest.map Token.kind = others := by
  cases operand with
  | field path =>
    obtain ⟨⟨kind, position⟩, rest, rfl, hkind, hrest⟩ := List.map_eq_cons_iff.mp h
    cases hkind
    refine ⟨rest, ?_, hrest⟩
    cases rest with
    | nil => rfl
    | cons t rest =>
      obtain ⟨next, position'⟩ := t
      rw [show others = _ from hrest.symm] at hnext
      rw [readOperand]
      · rfl
      · rintro position'' left heq
        cases heq
        exact hnext rfl
  | formula op args =>
    obtain ⟨⟨kind, position⟩, ts', rfl, hkind, h₁⟩ := List.map_eq_cons_iff.mp h
    cases hkind
    obtain ⟨⟨kind, position'⟩, ts, rfl, hkind, h₂⟩ := List.map_eq_cons_iff.mp h₁
    cases hkind
    rw [List.append_eq, List.append_assoc, List.singleton_append] at h₂
    obtain ⟨rest, hread, hrest⟩ := readCall_kinds args h₂
    refine ⟨rest, ?_, hrest⟩
    simp only [readOperand, op.ofWord?_word, readFormula, hread, List.length_map]
    rfl

/-! ### Literals -/

theorem Literal.exists_scalarKinds {value : Literal} (h : value.isScalar = true) :
    ∃ kind, value.scalarKinds = [kind] ∧ kind.scalar? = some value.rereadScalar
      ∧ kind ≠ .leftBracket := by
  cases value with
  | number x => exact ⟨_, rfl, rfl, nofun⟩
  | text s => exact ⟨_, rfl, rfl, nofun⟩
  | bool b => exact ⟨_, rfl, by cases b <;> rfl, nofun⟩
  | list items => cases h

theorem readItems_kinds {items : List Literal} (hne : items ≠ [])
    (hscalars : ∀ item ∈ items, item.isScalar = true) {ts : List Token} {others : List TokenKind}
    (h : ts.map Token.kind
      = List.intercalate [.comma] (items.map Literal.scalarKinds) ++ .rightBracket :: others) :
    ∃ rest, readItems ts = .ok (items.map Literal.rereadScalar, rest)
      ∧ rest.map Token.kind = others := by
  induction items generalizing ts with
  | nil => exact absurd rfl hne
  | cons item items ih =>
    obtain ⟨kind, hkinds, hscalar, -⟩ :=
      Literal.exists_scalarKinds (hscalars item (List.mem_cons_self ..))
    cases items with
    | nil =>
      rw [List.map_singleton, List.intercalate_singleton, hkinds] at h
      obtain ⟨t, ts, rfl, ht, hts⟩ := List.map_eq_cons_iff.mp h
      obtain ⟨s, rest, rfl, hs, hrest⟩ := List.map_eq_cons_iff.mp hts
      refine ⟨rest, ?_, hrest⟩
      simp only [readItems, ht, hs, hscalar, List.map_cons, List.map_nil]
    | cons next items =>
      rw [List.map_cons, List.map_cons, List.intercalate_cons_cons, hkinds, List.append_assoc,
        List.append_assoc] at h
      obtain ⟨t, ts, rfl, ht, hts⟩ := List.map_eq_cons_iff.mp h
      obtain ⟨s, ts, rfl, hs, hitems⟩ := List.map_eq_cons_iff.mp hts
      obtain ⟨rest, hread, hrest⟩ := ih (List.cons_ne_nil next items)
        (fun x hx => hscalars x (List.mem_cons_of_mem _ hx)) hitems
      refine ⟨rest, ?_, hrest⟩
      simp only [readItems, ht, hs, hscalar, hread, Except.map, List.map_cons]

theorem readScalar_kinds {value : Literal} (hscalar : value.isScalar = true) {ts : List Token}
    {others : List TokenKind} (h : ts.map Token.kind = value.scalarKinds ++ others) :
    ∃ rest, readScalar ts = .ok (value.rereadScalar, rest) ∧ rest.map Token.kind = others := by
  obtain ⟨kind, hkinds, hread, hbracket⟩ := Literal.exists_scalarKinds hscalar
  rw [hkinds] at h
  obtain ⟨⟨k, position⟩, rest, rfl, hkind, hrest⟩ := List.map_eq_cons_iff.mp h
  cases hkind
  refine ⟨rest, ?_, hrest⟩
  rw [readScalar]
  · simp only [hread]
  · rintro position' heq
    cases heq
    exact hbracket rfl

theorem readValue_kinds {value : Literal} {op : Operator} (hfits : value.fits op = true)
    {ts : List Token} {others : List TokenKind}
    (h : ts.map Token.kind = value.kinds ++ others) :
    ∃ rest, readValue op ts = .ok (value.reread, rest) ∧ rest.map Token.kind = others := by
  cases value with
  | list items =>
    simp only [Literal.fits, Bool.and_eq_true, beq_iff_eq, Bool.not_eq_true',
      List.isEmpty_eq_false_iff, List.all_eq_true] at hfits
    obtain ⟨⟨rfl, hne⟩, hscalars⟩ := hfits
    obtain ⟨⟨kind, position⟩, ts, rfl, hkind, hts⟩ := List.map_eq_cons_iff.mp h
    cases hkind
    rw [List.append_eq, List.append_assoc, List.singleton_append] at hts
    obtain ⟨rest, hread, hrest⟩ := readItems_kinds hne hscalars hts
    refine ⟨rest, ?_, hrest⟩
    rw [readValue, if_pos rfl, readList, hread]
    rfl
  | number x =>
    rw [readValue, if_neg (by simpa [Literal.fits] using hfits)]
    exact readScalar_kinds (show (Literal.number x).isScalar = true from rfl) h
  | text s =>
    rw [readValue, if_neg (by simpa [Literal.fits] using hfits)]
    exact readScalar_kinds (show (Literal.text s).isScalar = true from rfl) h
  | bool b =>
    rw [readValue, if_neg (by simpa [Literal.fits] using hfits)]
    exact readScalar_kinds (show (Literal.bool b).isScalar = true from rfl) h

/-! ### Clauses -/

/-- Whether an operand's first word would be read as the negation is settled by
`Operand.isWorded`. -/
theorem Operand.exists_kinds {operand : Operand} (hword : operand.isWorded false = true) :
    ∃ w others, operand.kinds = .word w :: others ∧ (Text.asciiLower w == "not") = false := by
  cases operand with
  | field path =>
    refine ⟨path, [], rfl, ?_⟩
    simpa [Operand.isWorded] using (Bool.and_eq_true_iff.mp hword).2
  | formula op args =>
    refine ⟨op.word, _, rfl, ?_⟩
    cases op <;> decide

theorem readNot_kinds {c : Clause} (hword : c.operand.isWorded c.negated = true)
    {ts : List Token} {others : List TokenKind} (h : ts.map Token.kind = c.kinds ++ others) :
    ∃ rest, readNot ts = (c.negated, rest)
      ∧ rest.map Token.kind
        = c.operand.kinds ++ .word c.operator.word :: (c.value.kinds ++ others) := by
  rw [Clause.kinds] at h
  cases hneg : c.negated with
  | true =>
    rw [hneg, if_pos rfl, List.append_assoc, List.append_assoc] at h
    obtain ⟨t, rest, rfl, ht, hrest⟩ := List.map_eq_cons_iff.mp h
    refine ⟨rest, ?_, hrest⟩
    have hnot : t.kind.isKeyword "not" = true := by
      rw [ht]
      decide
    rw [readNot, if_pos hnot]
  | false =>
    rw [hneg, if_neg (by decide), List.nil_append, List.append_assoc] at h
    refine ⟨ts, ?_, h⟩
    rw [hneg] at hword
    obtain ⟨w, more, hkinds, hw⟩ := Operand.exists_kinds hword
    rw [hkinds] at h
    obtain ⟨t, rest, rfl, ht, -⟩ := List.map_eq_cons_iff.mp h
    have hnot : t.kind.isKeyword "not" = false := by
      rw [ht]
      exact hw
    rw [readNot, if_neg (by rw [hnot]; decide)]

/-- A clause reads as itself if the count of its operands passes. -/
theorem readClause_kinds {c : Clause} (hword : c.operand.isWorded c.negated = true)
    (hfits : c.value.fits c.operator = true) {ts : List Token} {others : List TokenKind}
    (h : ts.map Token.kind = c.kinds ++ others) :
    ∃ rest, readClause ts
        = c.operand.checkCount.map (fun _ => ({ c.reread with connective := none }, rest))
      ∧ rest.map Token.kind = others := by
  obtain ⟨ts₁, hnot, h₁⟩ := readNot_kinds hword h
  obtain ⟨ts₂, hoperand, h₂⟩ := readOperand_kinds c.operand h₁ (by simp)
  obtain ⟨⟨kind, position⟩, ts₃, rfl, hkind, h₃⟩ := List.map_eq_cons_iff.mp h₂
  cases hkind
  obtain ⟨rest, hvalue, hrest⟩ := readValue_kinds hfits h₃
  refine ⟨rest, ?_, hrest⟩
  have hoperator : readOperator (⟨.word c.operator.word, position⟩ :: ts₃)
      = .ok (c.operator, ts₃) := by
    simp only [readOperator, TokenKind.wordText, c.operator.ofWord?_word]
  simp only [readClause, hnot, hoperand]
  cases c.operand.checkCount with
  | error e => rfl
  | ok u =>
    simp only [Except.map, hoperator, hvalue]
    rfl

/-- The checks of the counts of operands, clause by clause. -/
def checkCounts : List Clause → Except ParseError Unit
  | [] => .ok ()
  | c :: rest =>
    match c.operand.checkCount with
    | .error e => .error e
    | .ok _ => checkCounts rest

/-- What the reader does behind a clause and the tokens that follow it. -/
theorem readClauses_of_readClause {ts left : List Token} {c : Clause} {u : Except ParseError Unit}
    (h : readClause ts = u.map fun _ => (c, left)) :
    readClauses ts = (do
      u
      match ← readJoint left with
      | none => return [c]
      | some (joint, rest) =>
        return { c with connective := some joint } :: (← readClauses rest)) := by
  rw [readClauses]
  cases u with
  | error e =>
    split
    · next e' he =>
      rw [h] at he
      cases he
      rfl
    · next he =>
      rw [h] at he
      cases he
  | ok u =>
    split
    · next he =>
      rw [h] at he
      cases he
    · next c' left' he =>
      rw [h] at he
      cases he
      split
      · next hj => simp [hj, bind, Except.bind]
      · next hj => simp [hj, bind, Except.bind, pure, Except.pure]
      · next joint rest hj =>
        simp only [hj, bind, Except.bind, pure, Except.pure]
        cases readClauses rest <;> rfl

theorem clauseKinds_ne_nil (c : Clause) (cs : List Clause) : clauseKinds (c :: cs) ≠ [] := by
  cases cs <;> simp [clauseKinds, Clause.kinds]

theorem readJoint_kinds {joint : Connective} {c : Clause} {cs : List Clause} {ts : List Token}
    (h : ts.map Token.kind = .word joint.word :: clauseKinds (c :: cs)) :
    ∃ rest, readJoint ts = .ok (some (joint, rest))
      ∧ rest.map Token.kind = clauseKinds (c :: cs) := by
  obtain ⟨⟨kind, position⟩, rest, rfl, hkind, hrest⟩ := List.map_eq_cons_iff.mp h
  cases hkind
  refine ⟨rest, ?_, hrest⟩
  cases rest with
  | nil => exact absurd hrest.symm (clauseKinds_ne_nil c cs)
  | cons t rest => simp [readJoint, TokenKind.wordText, joint.ofWord?_word]

/-- A chain of clauses reads as itself if all counts of operands pass. -/
theorem readClauses_kinds {cs : List Clause} (hne : cs ≠ [])
    (hword : ∀ c ∈ cs, c.operand.isWorded c.negated = true)
    (hfits : ∀ c ∈ cs, c.value.fits c.operator = true) {ts : List Token}
    (h : ts.map Token.kind = clauseKinds cs) :
    readClauses ts = (checkCounts cs).map fun _ => settle (cs.map Clause.reread) := by
  induction cs generalizing ts with
  | nil => exact absurd rfl hne
  | cons c cs ih =>
    have hwordc := hword c (List.mem_cons_self ..)
    have hfitsc := hfits c (List.mem_cons_self ..)
    cases cs with
    | nil =>
      rw [clauseKinds, ← List.append_nil c.kinds] at h
      obtain ⟨rest, hclause, hrest⟩ := readClause_kinds hwordc hfitsc h
      rw [readClauses_of_readClause hclause, List.map_eq_nil_iff.mp hrest, checkCounts]
      cases c.operand.checkCount <;> rfl
    | cons d cs =>
      obtain ⟨left, hclause, hleft⟩ := readClause_kinds hwordc hfitsc h
      obtain ⟨rest, hjoint, hrest⟩ := readJoint_kinds hleft
      have hchain := ih (List.cons_ne_nil d cs) (fun x hx => hword x (List.mem_cons_of_mem _ hx))
        (fun x hx => hfits x (List.mem_cons_of_mem _ hx)) hrest
      rw [readClauses_of_readClause hclause, hjoint, checkCounts]
      cases c.operand.checkCount with
      | error e => rfl
      | ok u =>
        simp only [bind, Except.bind, hchain]
        cases checkCounts (d :: cs) <;> rfl

/-! ### Whole texts -/

theorem tokensFrom_of_isBlank {cs : List Char} (h : cs.all Text.isBlank = true) (position : Nat) :
    tokensFrom position cs = .ok [] := by
  rw [← List.append_nil cs, tokensFrom_blanks_append h, tokensFrom]

/-- A text with tokens is parsed by reading them. -/
theorem parse_eq_ofTokens {text : String} {ts : List Token} (htokens : tokenize text = .ok ts)
    (hne : ts ≠ []) : Expression.parse text = Expression.ofTokens ts := by
  rw [Expression.parse, if_neg, htokens]
  intro hblank
  rw [tokenize, tokensFrom_of_isBlank hblank] at htokens
  exact hne (Except.ok.inj htokens).symm

theorem parse_of_lexes {text : String} {kinds : List TokenKind} (h : Lexes text.toList kinds)
    (hne : kinds ≠ []) :
    ∃ ts, Expression.parse text = Expression.ofTokens ts ∧ ts.map Token.kind = kinds := by
  obtain ⟨ts, htokens, rfl⟩ := h 0
  exact ⟨ts, parse_eq_ofTokens htokens fun hnil => hne (List.map_eq_nil_iff.mpr hnil), rfl⟩

/-- The text of an expression whose paths are words is read token by token. -/
theorem parse_render_eq_ofTokens {e : Expression} (hne : e.clauses ≠ [])
    (hword : ∀ c ∈ e.clauses, c.operand.isWorded true = true)
    (hfits : ∀ c ∈ e.clauses, c.value.fits c.operator = true)
    (hnumber : ∀ x ∈ e.numbers, Decimal.Faithful x) :
    ∃ ts, Expression.parse e.render = Expression.ofTokens ts
      ∧ ts.map Token.kind = clauseKinds e.clauses := by
  have hspells : Spells e.render (clauseKinds e.clauses) :=
    spells_renderClauses hword hfits fun c hc x hx =>
      hnumber x (List.mem_flatMap.mpr ⟨c, hc, hx⟩)
  refine parse_of_lexes hspells.lexes ?_
  obtain ⟨c, cs, hcs⟩ := List.exists_cons_of_ne_nil hne
  rw [hcs]
  exact clauseKinds_ne_nil c cs

/-- **The text of an expression reads as the expression**, with its numbers as they read and the
connectives that the text shows, if the counts of operands pass. -/
theorem parse_render {e : Expression} (hne : e.clauses ≠ [])
    (hword : ∀ c ∈ e.clauses, c.operand.isWorded c.negated = true)
    (hfits : ∀ c ∈ e.clauses, c.value.fits c.operator = true)
    (hnumber : ∀ x ∈ e.numbers, Decimal.Faithful x) :
    Expression.parse e.render = (checkCounts e.clauses).map fun _ => e.reread.settled := by
  obtain ⟨ts, hparse, hts⟩ := parse_render_eq_ofTokens hne
    (fun c hc => Operand.isWorded_behind_not (hword c hc)) hfits hnumber
  rw [hparse, Expression.ofTokens, readClauses_kinds hne hword hfits hts]
  cases checkCounts e.clauses <;> rfl

end ChargeScreening
