import ChargeScreening.Expression.Basic

/-!
# The text of an expression

The canonical spelling of an expression, which is also what a stored rule keeps.

## Main definitions

* `Literal.render`, `Operand.render`, `Clause.render`: the parts
* `Expression.render`: the whole chain
-/

namespace ChargeScreening

namespace Literal

/-- A character inside quotes: quotes and backslashes stand behind a backslash. -/
def escaped (c : Char) : List Char :=
  if c = '"' ∨ c = '\\' then ['\\', c] else [c]

/-- A text in quotes. -/
def quoted (s : String) : String :=
  String.ofList ('"' :: (s.toList.flatMap escaped ++ ['"']))

mutual

/-- A literal as rule text. -/
def render : Literal → String
  | .number x => Decimal.ruleText x
  | .text s => quoted s
  | .bool b => Value.boolText b
  | .list items => "[" ++ String.intercalate "," (renderItems items) ++ "]"

/-- The items of a list as rule text. -/
def renderItems : List Literal → List String
  | [] => []
  | item :: rest => render item :: renderItems rest

end

end Literal

/-- A formula operand as rule text. -/
def FormulaArg.render : FormulaArg → String
  | .field path => path
  | .constant x => Decimal.ruleText x

/-- The left-hand side of a clause as rule text. -/
def Operand.render : Operand → String
  | .field path => path
  | .formula op args =>
    op.word ++ " (" ++ String.intercalate "," (args.map FormulaArg.render) ++ ")"

/-- A clause as rule text, without its connective. -/
def Clause.render (c : Clause) : String :=
  (if c.negated then "not " else "") ++ c.operand.render ++ " " ++ c.operator.word ++ " "
    ++ c.value.render

/-- A chain of clauses as rule text: a connective stands between two clauses, `and` where none is
given, and the last clause's own is dropped. -/
def renderClauses : List Clause → String
  | [] => ""
  | [c] => c.render
  | c :: rest => c.render ++ " " ++ (c.connective.getD .and).word ++ " " ++ renderClauses rest

/-- An expression as rule text. -/
def Expression.render (e : Expression) : String :=
  renderClauses e.clauses

end ChargeScreening
