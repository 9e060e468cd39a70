import ChargeScreening.Expression.Token
import ChargeScreening.Expression.Operator

/-!
# Why a text is no rule expression

## Main definitions

* `Expected`: what should have stood where something else was found
* `FormulaFault`: what is wrong with a formula's operands
* `ParseError`: the causes, with `ParseError.message`
-/

namespace ChargeScreening

/-- What should have stood where something else was found. -/
inductive Expected where
  | expression
  | fieldOrFormula
  | mathOperation
  | formulaOperand
  | commaOrParen
  | operator
  | value
  | scalarValue
  | list
  | openBracket
  | listItem
  | commaOrBracket
  | scalar
  | andOrOr
  | nextClause
deriving DecidableEq, Repr

/-- The words of a message for it. -/
def Expected.text : Expected → String
  | .expression => "expression"
  | .fieldOrFormula => "field or formula"
  | .mathOperation => "math operation (SUM, SUBTRACT, MLP, DIV)"
  | .formulaOperand => "formula operand"
  | .commaOrParen => "',' or ')'"
  | .operator => "operator"
  | .value => "value"
  | .scalarValue => "scalar value (lists are only allowed with 'in')"
  | .list => "list"
  | .openBracket => "'[' after 'in'"
  | .listItem => "list item"
  | .commaOrBracket => "',' or ']'"
  | .scalar => "number, quoted string or boolean"
  | .andOrOr => "'and' or 'or'"
  | .nextClause => "clause after condition"

/-- What is wrong with the operands of a formula. -/
inductive FormulaFault where
  | tooFew (op : MathOp) (count : Nat)
  | notExactly (op : MathOp) (arity count : Nat)
deriving DecidableEq, Repr

/-- The words of a message for it. -/
def FormulaFault.text : FormulaFault → String
  | .tooFew op count => op.word ++ " requires at least 2 operands, got " ++ toString count
  | .notExactly op arity count =>
    op.word ++ " requires exactly " ++ toString arity ++ " operands, got " ++ toString count

/-- Why a text is no rule expression. -/
inductive ParseError where
  /-- Nothing but blanks. -/
  | emptyExpression
  | unexpectedToken (found : String) (expected : Expected) (position : Nat)
  | unexpectedEnd (expected : Expected)
  | invalidNumber (spelling : String) (position : Nat)
  | unterminatedString (position : Nat)
  | invalidFormula (fault : FormulaFault)
deriving DecidableEq, Repr

/-- The text of the error. -/
def ParseError.message : ParseError → String
  | .emptyExpression => "Empty expression"
  | .unexpectedToken found expected position =>
    "Unexpected token '" ++ found ++ "' at position " ++ toString position ++ ", expected "
      ++ expected.text
  | .unexpectedEnd expected => "Unexpected end of expression, expected " ++ expected.text
  | .invalidNumber spelling position =>
    "Invalid number '" ++ spelling ++ "' at position " ++ toString position
  | .unterminatedString position => "Unterminated string starting at position " ++ toString position
  | .invalidFormula fault => "Invalid formula: " ++ fault.text

end ChargeScreening
