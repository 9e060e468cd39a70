import ChargeScreening.Evaluation.Comparison
import ChargeScreening.Evaluation.Formula
import ChargeScreening.Expression.Parser

/-!
# Evaluating rule expressions

Clauses are folded strictly from left to right: each one's connective joins it to the next, and
`and` binds no tighter than `or`.

## Main definitions

* `Clause.eval`: the result of one clause
* `Expression.eval`: the result of a chain
* `evalText`: the result of rule text
-/

namespace ChargeScreening

/-- The value on the left-hand side of a clause. -/
def Operand.value (a : Attributes) : Operand → Except EvalError Value
  | .field path =>
    match a.get? path with
    | some value => .ok value
    | none => .error (.missingOperand path)
  | .formula op args => (evalFormula op args a).map .number

/-- The result of a clause: that of its comparison, inverted if it is negated. -/
def Clause.eval (c : Clause) (a : Attributes) : Except EvalError Bool :=
  match c.operand.value a with
  | .error e => .error e
  | .ok value => (compareValue value c.operator c.value).map (· != c.negated)

/-- The connective of a clause, `and` where none is given. -/
def Clause.joint (c : Clause) : Connective :=
  c.connective.getD .and

/-- Folds clauses into the result so far, the first of them joined by the connective given. -/
def foldClauses (a : Attributes) : Bool → Connective → List Clause → Except EvalError Bool
  | result, _, [] => .ok result
  | result, joint, c :: rest =>
    match c.eval a with
    | .error e => .error e
    | .ok b => foldClauses a (joint.combine result b) c.joint rest

/-- The result of an expression, or the error of the first clause that has none. -/
def Expression.eval (e : Expression) (a : Attributes) : Except EvalError Bool :=
  match e.clauses with
  | [] => .error .emptyExpression
  | c :: rest =>
    match c.eval a with
    | .error e => .error e
    | .ok b => foldClauses a b c.joint rest

/-- The result of rule text. -/
def evalText (text : String) (a : Attributes) : Except EvalError Bool :=
  if Text.isAllBlank text then .error .emptyExpression
  else
    match Expression.parse text with
    | .error e => .error (.parse e)
    | .ok e => e.eval a

end ChargeScreening
