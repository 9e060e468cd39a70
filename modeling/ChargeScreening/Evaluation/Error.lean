import ChargeScreening.Expression.Error

/-!
# Why an expression has no result

## Main definitions

* `OperationFault`: a formula that cannot be reckoned
* `EvalError`: the causes, with `EvalError.message`
-/

namespace ChargeScreening

/-- A formula that cannot be reckoned, whatever its attributes hold. -/
inductive OperationFault where
  | withoutOperands (op : MathOp)
  | subtractOperands (count : Nat)
deriving DecidableEq, Repr

/-- The words of a message for it. -/
def OperationFault.text : OperationFault → String
  | .withoutOperands op => op.word ++ " called without operands"
  | .subtractOperands count => "SUBTRACT needs exactly 2 operands, got " ++ toString count

/-- Why an expression has no result. -/
inductive EvalError where
  | emptyExpression
  | parse (cause : ParseError)
  /-- A clause reads an attribute that the charge does not have. -/
  | missingOperand (path : String)
  | typeMismatch (operator left right : String)
  | invalidOperation (fault : OperationFault)
deriving DecidableEq, Repr

/-- The text of the error. -/
def EvalError.message : EvalError → String
  | .emptyExpression => "Empty expression"
  | .parse cause => "Parse error: " ++ cause.message
  | .missingOperand path => "Missing operand: " ++ path
  | .typeMismatch operator left right =>
    "Type mismatch: cannot apply '" ++ operator ++ "' to " ++ left ++ " and " ++ right
  | .invalidOperation fault => "Invalid operation: " ++ fault.text

end ChargeScreening
