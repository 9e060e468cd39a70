import ChargeScreening.Expression.Parser
import ChargeScreening.Expression.Printer
import ChargeScreening.Rule.Error

/-!
# From clauses to rule text

Clauses become an expression clause by clause, formulas first, and the expression is rendered.
A text that does not read back is refused.

## Main definitions

* `compileClause`: the clause of an expression for a clause of an author
* `formulasFirst`: the order in which clauses are compiled, each with its place
* `compileExpression`: the expression of a list of clauses
* `compileText`: its text
* `readsIdentity`: whether clauses name identity signals
-/

namespace ChargeScreening

/-- The prefix of the paths of identity signals. -/
def identityPrefix : String := "identity."

/-- Whether a path, without the blanks around it, is one of an identity signal. -/
def isIdentityPath (path : String) : Bool :=
  identityPrefix.toList.isPrefixOf (Text.trimList path.toList)

/-- Whether any clause names an identity signal. -/
def readsIdentity (clauses : List DraftClause) : Bool :=
  clauses.any fun c => c.fields.any isIdentityPath

namespace DraftClause

/-- The field without the blanks around it, unless nothing is left. -/
def presentField? (c : DraftClause) : Option String :=
  (c.field.map Text.trim).filter (· ≠ "")

/-- The left-hand side of the clause: its field or its formula, and not both. -/
def operand (place : Nat) (c : DraftClause) : Except RuleError Operand :=
  match c.presentField?, c.isFormula with
  | some field, false => .ok (.field field)
  | none, true =>
    let word := c.formulaOp.getD ""
    match MathOp.ofWord? word with
    | some op => .ok (.formula op ((c.formulaFields.getD []).map fun f => .field (Text.trim f)))
    | none => .error (.invalidFormula place (.unknownOperation word))
  | some _, true => .error (.invalidClause place .fieldAndFormula)
  | none, false => .error (.invalidClause place .neitherFieldNorFormula)

end DraftClause

/-- Whether `true` and `false` written as texts are truth values for an operator: where it is
about being equal. -/
def Operator.readsBools : Operator → Bool
  | .eq | .ne | .isIn => true
  | _ => false

/-- The literal of a scalar. -/
def scalarLiteral? (readsBools : Bool) : Value → Option Literal
  | .text s =>
    if readsBools && Text.asciiLower s == "true" then some (.bool true)
    else if readsBools && Text.asciiLower s == "false" then some (.bool false)
    else some (.text s)
  | .number x => some (.number x)
  | .bool b => some (.bool b)
  | .null | .array _ | .object _ => none

/-- The literal of a value: a scalar, or a list of scalars. -/
def valueLiteral? (readsBools : Bool) : Value → Option Literal
  | .array items => (items.mapM (scalarLiteral? readsBools)).map .list
  | value => scalarLiteral? readsBools value

/-- The right-hand side of a clause. A single value of `in` becomes a list of its own; every
other operator takes single values only. -/
def compileValue (place : Nat) (op : Operator) (value : Value) : Except RuleError Literal :=
  match valueLiteral? op.readsBools value with
  | none => .error (.invalidClause place (.unsupportedValue value.kind))
  | some literal =>
    match op, literal with
    | .isIn, .list items =>
      if items.isEmpty then .error (.invalidClause place .emptyList) else .ok (.list items)
    | .isIn, scalar => .ok (.list [scalar])
    | op, .list _ => .error (.invalidClause place (.listWithout op))
    | _, scalar => .ok scalar

/-- The clause of an expression for the author's clause in a given place. -/
def compileClause (place : Nat) (c : DraftClause) : Except RuleError Clause :=
  match c.operand place with
  | .error e => .error e
  | .ok operand =>
    (compileValue place c.operator c.value).map fun value =>
      ⟨c.negated, operand, c.operator, value, c.connective⟩

/-- Clauses with their places, formulas in front; otherwise the order is kept. -/
def formulasFirst (clauses : List DraftClause) : List (DraftClause × Nat) :=
  let placed := clauses.zipIdx
  placed.filter (fun p => p.1.isFormula) ++ placed.filter (fun p => !p.1.isFormula)

/-- The compiled clauses, or the first error. -/
def compileClauses : List (DraftClause × Nat) → Except RuleError (List Clause)
  | [] => .ok []
  | (c, place) :: rest =>
    match compileClause place c with
    | .error e => .error e
    | .ok compiled => (compileClauses rest).map (compiled :: ·)

/-- The expression of a list of clauses. -/
def compileExpression (clauses : List DraftClause) : Except RuleError Expression :=
  if clauses.isEmpty then .error (.invalidClause 0 .noClauses)
  else (compileClauses (formulasFirst clauses)).map Expression.mk

/-- The text of a list of clauses. It has to read back as an expression. -/
def compileText (clauses : List DraftClause) : Except RuleError String :=
  match compileExpression clauses with
  | .error e => .error e
  | .ok expression =>
    match Expression.parse expression.render with
    | .error e => .error (.invalidExpression e)
    | .ok _ => .ok expression.render

end ChargeScreening
