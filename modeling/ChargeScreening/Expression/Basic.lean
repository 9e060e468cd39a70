import ChargeScreening.Expression.Operator
import ChargeScreening.Value

/-!
# Rule expressions

A rule expression is a flat chain of clauses, read from left to right. A clause compares an
attribute or a formula with a literal, and carries the connective to the clause behind it.

## Main definitions

* `Literal`, `FormulaArg`, `Operand`, `Clause`, `Expression`: the parts of an expression
* `Expression.fields`: the attribute paths it reads
* `Literal.ofValue?`: the literal of a value
* `Expression.toJson`, `Expression.ofJson?`: the JSON form
-/

namespace ChargeScreening

/-- The right-hand side of a clause. -/
inductive Literal where
  | number (x : Float)
  | text (s : String)
  | bool (b : Bool)
  | list (items : List Literal)
deriving Inhabited

namespace Literal

mutual

/-- Whether two literals are equal, with their numbers compared as doubles. -/
def same : Literal → Literal → Bool
  | .number x, .number y => x == y
  | .text s, .text t => s == t
  | .bool a, .bool b => a == b
  | .list items, .list others => sameItems items others
  | _, _ => false

/-- Whether two lists of literals are equal item by item. -/
def sameItems : List Literal → List Literal → Bool
  | [], [] => true
  | item :: rest, other :: others => same item other && sameItems rest others
  | _, _ => false

end

instance : BEq Literal := ⟨same⟩

end Literal

/-- An operand of a formula. -/
inductive FormulaArg where
  | field (path : String)
  | constant (x : Float)
deriving Inhabited, BEq, DecidableEq

/-- The left-hand side of a clause. -/
inductive Operand where
  /-- The attribute under a dotted path. -/
  | field (path : String)
  /-- A number reckoned from several attributes and constants. -/
  | formula (op : MathOp) (args : List FormulaArg)
deriving Inhabited, BEq, DecidableEq

/-- A comparison, with the connective to the clause behind it. -/
structure Clause where
  /-- Whether the result of the comparison is inverted. -/
  negated : Bool
  operand : Operand
  operator : Operator
  value : Literal
  /-- Joins the clause to the next one; without meaning on the last clause. -/
  connective : Option Connective
deriving Inhabited, BEq

/-- A chain of clauses. -/
structure Expression where
  clauses : List Clause
deriving Inhabited, BEq

namespace FormulaArg

/-- The attribute path, if the operand is one. -/
def field? : FormulaArg → Option String
  | .field path => some path
  | .constant _ => none

/-- The JSON form. -/
def toJson : FormulaArg → Json
  | .field path => .object [("Field", .string path)]
  | .constant x => .object [("Constant", .ofFloat x)]

/-- Reads the JSON form. -/
def ofJson? (j : Json) : Option FormulaArg :=
  match j.choice? with
  | some ("Field", some content) => content.text?.map .field
  | some ("Constant", some content) => content.double?.map .constant
  | _ => none

end FormulaArg

namespace Operand

/-- The attribute paths an operand reads, in order. -/
def fields : Operand → List String
  | .field path => [path]
  | .formula _ args => args.filterMap FormulaArg.field?

/-- The JSON form. -/
def toJson : Operand → Json
  | .field path => .object [("Field", .string path)]
  | .formula op args =>
    .object [("Formula",
      .object [("op", op.toJson), ("args", .array (args.map FormulaArg.toJson))])]

/-- Reads the parts of a formula from an object. -/
def formulaOfJson? : Json → Option Operand
  | .object members => do
    let r := Json.Record.named members
    let op ← r.required? 0 ["op"] MathOp.ofJson?
    let args ← r.required? 1 ["args"] (Json.list? FormulaArg.ofJson?)
    return .formula op args
  | _ => none

/-- Reads the JSON form. -/
def ofJson? (j : Json) : Option Operand :=
  match j.choice? with
  | some ("Field", some content) => content.text?.map .field
  | some ("Formula", some content) => formulaOfJson? content
  | _ => none

end Operand

namespace Literal

mutual

/-- The literal of a value: scalars and arrays of values that have literals. -/
def ofValue? : Value → Option Literal
  | .number x => some (.number x)
  | .text s => some (.text s)
  | .bool b => some (.bool b)
  | .array items => (ofValues? items).map .list
  | .null | .object _ => none

/-- The literals of values that all have one. -/
def ofValues? : List Value → Option (List Literal)
  | [] => some []
  | value :: rest => do
    let item ← ofValue? value
    let items ← ofValues? rest
    return item :: items

end

/-- The word for the kind of a literal in messages. -/
def kind : Literal → String
  | .number _ => "number"
  | .text _ => "string"
  | .bool _ => "bool"
  | .list _ => "list"

mutual

/-- The JSON form. -/
def toJson : Literal → Json
  | .number x => .object [("Number", .ofFloat x)]
  | .text s => .object [("String", .string s)]
  | .bool b => .object [("Bool", .bool b)]
  | .list items => .object [("List", .array (itemsToJson items))]

/-- The JSON forms of the items of a list. -/
def itemsToJson : List Literal → List Json
  | [] => []
  | item :: rest => toJson item :: itemsToJson rest

end

mutual

/-- Reads the JSON form. -/
def ofJson? : Json → Option Literal
  | .object [("Number", content)] => content.double?.map .number
  | .object [("String", content)] => content.text?.map .text
  | .object [("Bool", content)] => content.flag?.map .bool
  | .object [("List", .array items)] => (itemsOfJson? items).map .list
  | _ => none

/-- Reads the JSON forms of the items of a list. -/
def itemsOfJson? : List Json → Option (List Literal)
  | [] => some []
  | j :: rest => do
    let item ← ofJson? j
    let items ← itemsOfJson? rest
    return item :: items

end

end Literal

namespace Clause

/-- The JSON form. -/
def toJson (c : Clause) : Json :=
  .object [("negated", .bool c.negated), ("operand", c.operand.toJson),
    ("operator", c.operator.toJson), ("value", c.value.toJson),
    ("condition", Connective.toJson? c.connective)]

/-- Reads the JSON form. -/
def ofJson? (j : Json) : Option Clause := do
  let r ← j.record? 5
  let negated ← r.required? 0 ["negated"] Json.flag?
  let operand ← r.required? 1 ["operand"] Operand.ofJson?
  let operator ← r.required? 2 ["operator"] Operator.ofJson?
  let value ← r.required? 3 ["value"] Literal.ofJson?
  let connective ← r.nullable? 4 ["condition"] Connective.ofJson?
  return { negated, operand, operator, value, connective }

end Clause

namespace Expression

/-- The attribute paths an expression reads, in order of appearance. -/
def fields (e : Expression) : List String :=
  e.clauses.flatMap fun c => c.operand.fields

/-- The JSON form. -/
def toJson (e : Expression) : Json :=
  .object [("clauses", .array (e.clauses.map Clause.toJson))]

/-- Reads the JSON form. -/
def ofJson? (j : Json) : Option Expression := do
  let r ← j.record? 1
  let clauses ← r.required? 0 ["clauses"] (Json.list? Clause.ofJson?)
  return { clauses }

end Expression

end ChargeScreening
