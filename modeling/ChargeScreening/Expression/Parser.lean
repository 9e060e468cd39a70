import ChargeScreening.Expression.Basic
import ChargeScreening.Expression.Lexer

/-!
# Reading rule expressions

A clause is `[not] operand operator value`; clauses are chained by `and` and `or`, which carry the
same weight. Keywords are read in any case, and paths are kept as they are written. A leading
`not` is always the negation, and a word in front of a parenthesis is always a formula operation.

## Main definitions

* `readOperand`, `readOperator`, `readValue`, `readClause`: the parts, each with the tokens left
* `readClauses`: a chain of clauses that uses up all tokens
* `Expression.parse`: the expression a text spells
-/

namespace ChargeScreening

/-- The error of a token that stands where something else should. -/
def Token.unexpected (t : Token) (expected : Expected) : ParseError :=
  .unexpectedToken t.kind.shown expected t.position

/-- The text in which a token can spell an operator or connective. -/
def TokenKind.wordText : TokenKind → String
  | .word text => text
  | .symbol s => s.spelling
  | _ => ""

/-- Whether a token is a word that spells a keyword, in any case. -/
def TokenKind.isKeyword (keyword : String) : TokenKind → Bool
  | .word text => Text.asciiLower text == keyword
  | _ => false

/-- The operand of a formula that a token is. -/
def TokenKind.formulaArg? : TokenKind → Option FormulaArg
  | .word path => some (.field path)
  | .number x => some (.constant x)
  | _ => none

/-- The scalar literal that a token is. -/
def TokenKind.scalar? : TokenKind → Option Literal
  | .number x => some (.number x)
  | .quoted s => some (.text s)
  | .word w =>
    if Text.asciiLower w == "true" then some (.bool true)
    else if Text.asciiLower w == "false" then some (.bool false)
    else none
  | _ => none

/-- At least one formula operand, up to the closing parenthesis. -/
def readArgs : List Token → Except ParseError (List FormulaArg × List Token)
  | [] => .error (.unexpectedEnd .formulaOperand)
  | [t] =>
    match t.kind.formulaArg? with
    | none => .error (t.unexpected .formulaOperand)
    | some _ => .error (.unexpectedEnd .commaOrParen)
  | t :: s :: rest =>
    match t.kind.formulaArg? with
    | none => .error (t.unexpected .formulaOperand)
    | some arg =>
      match s.kind with
      | .comma => (readArgs rest).map fun (args, rest) => (arg :: args, rest)
      | .rightParen => .ok ([arg], rest)
      | _ => .error (s.unexpected .commaOrParen)

/-- The operands behind the opening parenthesis of a formula. The parenthesis may close at once. -/
def readCall : List Token → Except ParseError (List FormulaArg × List Token)
  | ⟨.rightParen, _⟩ :: rest => .ok ([], rest)
  | ts => readArgs ts

/-- Checks the number of operands of a formula. -/
def checkArity (op : MathOp) (count : Nat) : Except ParseError Unit :=
  if count < 2 then .error (.invalidFormula (.tooFew op count))
  else
    match op.arity? with
    | some arity =>
      if count = arity then .ok () else .error (.invalidFormula (.notExactly op arity count))
    | none => .ok ()

/-- The formula of an operation, from behind its opening parenthesis on. -/
def readFormula (op : MathOp) (ts : List Token) : Except ParseError (Operand × List Token) :=
  match readCall ts with
  | .error e => .error e
  | .ok (args, rest) => (checkArity op args.length).map fun _ => (.formula op args, rest)

/-- The left-hand side of a clause. -/
def readOperand : List Token → Except ParseError (Operand × List Token)
  | [] => .error (.unexpectedEnd .fieldOrFormula)
  | ⟨.word name, position⟩ :: ⟨.leftParen, _⟩ :: rest =>
    match MathOp.ofWord? name with
    | some op => readFormula op rest
    | none => .error (.unexpectedToken name .mathOperation position)
  | ⟨.word name, _⟩ :: rest => .ok (.field name, rest)
  | t :: _ => .error (t.unexpected .fieldOrFormula)

/-- The operator of a clause. -/
def readOperator : List Token → Except ParseError (Operator × List Token)
  | [] => .error (.unexpectedEnd .operator)
  | t :: rest =>
    match Operator.ofWord? t.kind.wordText with
    | some op => .ok (op, rest)
    | none => .error (t.unexpected .operator)

/-- At least one item of a list, up to the closing bracket. -/
def readItems : List Token → Except ParseError (List Literal × List Token)
  | [] => .error (.unexpectedEnd .listItem)
  | [t] =>
    match t.kind.scalar? with
    | none => .error (t.unexpected .scalar)
    | some _ => .error (.unexpectedEnd .commaOrBracket)
  | t :: s :: rest =>
    match t.kind.scalar? with
    | none => .error (t.unexpected .scalar)
    | some item =>
      match s.kind with
      | .comma => (readItems rest).map fun (items, rest) => (item :: items, rest)
      | .rightBracket => .ok ([item], rest)
      | _ => .error (s.unexpected .commaOrBracket)

/-- A list in brackets. -/
def readList : List Token → Except ParseError (Literal × List Token)
  | [] => .error (.unexpectedEnd .list)
  | ⟨.leftBracket, _⟩ :: rest => (readItems rest).map fun (items, rest) => (.list items, rest)
  | t :: _ => .error (t.unexpected .openBracket)

/-- A single scalar. -/
def readScalar : List Token → Except ParseError (Literal × List Token)
  | [] => .error (.unexpectedEnd .value)
  | ⟨.leftBracket, position⟩ :: _ =>
    .error (Token.unexpected ⟨.leftBracket, position⟩ .scalarValue)
  | t :: rest =>
    match t.kind.scalar? with
    | some value => .ok (value, rest)
    | none => .error (t.unexpected .scalar)

/-- The right-hand side of a clause: a list for `in`, and a single scalar otherwise. -/
def readValue (op : Operator) (ts : List Token) : Except ParseError (Literal × List Token) :=
  if op = .isIn then readList ts else readScalar ts

/-- Whether a clause starts with `not`, and the tokens behind it. -/
def readNot : List Token → Bool × List Token
  | [] => (false, [])
  | t :: rest => if t.kind.isKeyword "not" then (true, rest) else (false, t :: rest)

/-- A clause without its connective. -/
def readClause (ts : List Token) : Except ParseError (Clause × List Token) :=
  let (negated, ts) := readNot ts
  match readOperand ts with
  | .error e => .error e
  | .ok (operand, ts) =>
    match readOperator ts with
    | .error e => .error e
    | .ok (operator, ts) =>
      match readValue operator ts with
      | .error e => .error e
      | .ok (value, ts) => .ok (⟨negated, operand, operator, value, none⟩, ts)

/-! ### Every part uses up tokens -/

theorem readArgs_length {ts rest : List Token} {args : List FormulaArg}
    (h : readArgs ts = .ok (args, rest)) : rest.length < ts.length := by
  fun_induction readArgs ts generalizing args rest with
  | case1 | case2 | case3 | case4 | case7 => cases h
  | case5 t s left arg _ _ ih =>
    cases hr : readArgs left with
    | error e => simp [hr, Except.map] at h
    | ok p =>
      obtain ⟨args', rest'⟩ := p
      simp only [hr, Except.map, Except.ok.injEq, Prod.mk.injEq] at h
      obtain ⟨-, rfl⟩ := h
      have := ih hr
      simp only [List.length_cons]
      omega
  | case6 t s left arg _ _ =>
    cases h
    simp only [List.length_cons]
    omega

theorem readCall_length {ts rest : List Token} {args : List FormulaArg}
    (h : readCall ts = .ok (args, rest)) : rest.length < ts.length := by
  unfold readCall at h
  split at h
  · cases h
    simp
  · exact readArgs_length h

theorem readFormula_length {op : MathOp} {ts rest : List Token} {operand : Operand}
    (h : readFormula op ts = .ok (operand, rest)) : rest.length < ts.length := by
  unfold readFormula at h
  split at h
  · cases h
  · rename_i args left hc
    cases ha : checkArity op args.length with
    | error e => simp [ha, Except.map] at h
    | ok u =>
      simp only [ha, Except.map, Except.ok.injEq, Prod.mk.injEq] at h
      obtain ⟨-, rfl⟩ := h
      exact readCall_length hc

theorem readOperand_length {ts rest : List Token} {operand : Operand}
    (h : readOperand ts = .ok (operand, rest)) : rest.length < ts.length := by
  unfold readOperand at h
  split at h
  · cases h
  · split at h
    · have := readFormula_length h
      simp only [List.length_cons]
      omega
    · cases h
  · cases h
    simp
  · cases h

theorem readOperator_length {ts rest : List Token} {op : Operator}
    (h : readOperator ts = .ok (op, rest)) : rest.length < ts.length := by
  unfold readOperator at h
  split at h
  · cases h
  · split at h <;> cases h
    simp

theorem readItems_length {ts rest : List Token} {items : List Literal}
    (h : readItems ts = .ok (items, rest)) : rest.length < ts.length := by
  fun_induction readItems ts generalizing items rest with
  | case1 | case2 | case3 | case4 | case7 => cases h
  | case5 t s left item _ _ ih =>
    cases hr : readItems left with
    | error e => simp [hr, Except.map] at h
    | ok p =>
      obtain ⟨items', rest'⟩ := p
      simp only [hr, Except.map, Except.ok.injEq, Prod.mk.injEq] at h
      obtain ⟨-, rfl⟩ := h
      have := ih hr
      simp only [List.length_cons]
      omega
  | case6 t s left item _ _ =>
    cases h
    simp only [List.length_cons]
    omega

theorem readValue_length {op : Operator} {ts rest : List Token} {value : Literal}
    (h : readValue op ts = .ok (value, rest)) : rest.length < ts.length := by
  unfold readValue at h
  split at h
  · unfold readList at h
    split at h
    · cases h
    · rename_i position left
      cases hr : readItems left with
      | error e => simp [hr, Except.map] at h
      | ok p =>
        obtain ⟨items, rest'⟩ := p
        simp only [hr, Except.map, Except.ok.injEq, Prod.mk.injEq] at h
        obtain ⟨-, rfl⟩ := h
        have := readItems_length hr
        simp only [List.length_cons]
        omega
    · cases h
  · unfold readScalar at h
    split at h
    · cases h
    · cases h
    · split at h <;> cases h
      simp

theorem readNot_length (ts : List Token) : (readNot ts).2.length ≤ ts.length := by
  cases ts with
  | nil => simp [readNot]
  | cons t rest =>
    simp only [readNot]
    split <;> simp

/-- A clause takes at least one token. -/
theorem readClause_length {ts rest : List Token} {c : Clause}
    (h : readClause ts = .ok (c, rest)) : rest.length < ts.length := by
  unfold readClause at h
  have hn := readNot_length ts
  cases ho : readOperand (readNot ts).2 with
  | error e => simp [ho] at h
  | ok p =>
    obtain ⟨operand, ts₁⟩ := p
    have h₁ := readOperand_length ho
    simp only [ho] at h
    cases hp : readOperator ts₁ with
    | error e => simp [hp] at h
    | ok p =>
      obtain ⟨op, ts₂⟩ := p
      have h₂ := readOperator_length hp
      simp only [hp] at h
      cases hv : readValue op ts₂ with
      | error e => simp [hv] at h
      | ok p =>
        obtain ⟨value, ts₃⟩ := p
        have h₃ := readValue_length hv
        simp only [hv, Except.ok.injEq, Prod.mk.injEq] at h
        obtain ⟨-, rfl⟩ := h
        omega

/-- What follows a clause: the end, or a connective with tokens behind it. -/
def readJoint : List Token → Except ParseError (Option (Connective × List Token))
  | [] => .ok none
  | t :: rest =>
    match Connective.ofWord? t.kind.wordText with
    | none => .error (t.unexpected .andOrOr)
    | some joint =>
      if rest.isEmpty then .error (.unexpectedEnd .nextClause) else .ok (some (joint, rest))

theorem readJoint_length {ts rest : List Token} {joint : Connective}
    (h : readJoint ts = .ok (some (joint, rest))) : rest.length < ts.length := by
  unfold readJoint at h
  split at h
  · cases h
  · split at h
    · cases h
    · split at h <;> cases h
      simp

/-- A chain of clauses that uses up all tokens. -/
def readClauses (ts : List Token) : Except ParseError (List Clause) :=
  match _clause : readClause ts with
  | .error e => .error e
  | .ok (c, left) =>
    match _joint : readJoint left with
    | .error e => .error e
    | .ok none => .ok [c]
    | .ok (some (joint, rest)) =>
      (readClauses rest).map ({ c with connective := some joint } :: ·)
termination_by ts.length
decreasing_by
  exact Nat.lt_trans (readJoint_length _joint) (readClause_length _clause)

/-- The expression that tokens spell. -/
def Expression.ofTokens (ts : List Token) : Except ParseError Expression :=
  (readClauses ts).map Expression.mk

/-- The expression that a text spells. A text of blanks is refused before it is split. -/
def Expression.parse (text : String) : Except ParseError Expression :=
  if Text.isAllBlank text then .error .emptyExpression
  else
    match tokenize text with
    | .error e => .error e
    | .ok ts => Expression.ofTokens ts

end ChargeScreening
