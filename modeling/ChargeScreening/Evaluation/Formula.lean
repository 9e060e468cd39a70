import ChargeScreening.Attributes
import ChargeScreening.Evaluation.Error
import ChargeScreening.Expression.Basic

/-!
# Reckoning formulas

## Main definitions

* `FormulaArg.number`: the number an operand stands for
* `MathOp.reckon`: the result of an operation on numbers
* `evalFormula`: the result of a formula
-/

namespace ChargeScreening

/-- The number that an operand of a formula stands for: an attribute that is missing or `null`
counts as zero, and any other has to be a number or spell one. -/
def FormulaArg.number (op : MathOp) (a : Attributes) : FormulaArg → Except EvalError Float
  | .constant x => .ok x
  | .field path =>
    match a.get? path with
    | none | some .null => .ok 0.0
    | some value =>
      match value.coerceNumber? with
      | some x => .ok x
      | none => .error (.typeMismatch op.word (path ++ " (" ++ value.kind ++ ")") "number")

/-- The numbers that operands stand for, or the first error. -/
def argNumbers (op : MathOp) (a : Attributes) : List FormulaArg → Except EvalError (List Float)
  | [] => .ok []
  | arg :: rest =>
    match arg.number op a with
    | .error e => .error e
    | .ok x => (argNumbers op a rest).map (x :: ·)

/-- The result of an operation on numbers. A sum starts from minus zero, which every number
absorbs. A quotient with a zero among its divisors is zero. -/
def MathOp.reckon (op : MathOp) : List Float → Except EvalError Float
  | [] => .error (.invalidOperation (.withoutOperands op))
  | first :: rest =>
    match op with
    | .sum => .ok ((first :: rest).foldl (· + ·) (-0.0))
    | .mlp => .ok ((first :: rest).foldl (· * ·) 1.0)
    | .subtract =>
      match rest with
      | [second] => .ok (first - second)
      | _ => .error (.invalidOperation (.subtractOperands (rest.length + 1)))
    | .div => if rest.any (· == 0.0) then .ok 0.0 else .ok (rest.foldl (· / ·) first)

/-- The result of a formula. -/
def evalFormula (op : MathOp) (args : List FormulaArg) (a : Attributes) :
    Except EvalError Float :=
  match argNumbers op a args with
  | .error e => .error e
  | .ok xs => op.reckon xs

end ChargeScreening
