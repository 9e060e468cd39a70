import ChargeScreening.Expression.Operator
import ChargeScreening.Value

/-!
# Clauses as authors write them

## Main definitions

* `DraftClause`: a comparison of a field or of a formula, before it is compiled
* `DraftClause.isFormula`: whether it says anything about a formula
* `DraftClause.fields`: the attribute paths it names
-/

namespace ChargeScreening

/-- A comparison as an author writes it. A proper one sets either the field or both parts of the
formula. -/
structure DraftClause where
  field : Option String := none
  operator : Operator
  value : Value
  /-- Joins the clause to the next one. -/
  connective : Option Connective := none
  /-- Whether the comparison is negated. -/
  negated : Bool := false
  formulaFields : Option (List String) := none
  formulaOp : Option String := none

namespace DraftClause

/-- Whether the clause says anything about a formula: names fields, or an operation that is not
blank. -/
def isFormula (c : DraftClause) : Bool :=
  c.formulaFields.any (fun fs => !fs.isEmpty) || c.formulaOp.any (fun op => !Text.isAllBlank op)

/-- The attribute paths the clause names, as they are written. -/
def fields (c : DraftClause) : List String :=
  c.field.toList ++ c.formulaFields.getD []

/-- A connective that may be given as a blank text, which stands for none. -/
def connectiveOfJson? (j : Json) : Option (Option Connective) :=
  match j with
  | .null => some none
  | .string s => if Text.isAllBlank s then some none else (Connective.ofWord? s).map some
  | _ => none

/-- The JSON form. -/
def toJson (c : DraftClause) : Json :=
  Json.objectOf [Json.member? "field" c.field .string,
    Json.member "operator" c.operator.toJson,
    Json.member "value" c.value.toJson,
    Json.member "condition" (Connective.toJson? c.connective),
    Json.member "not" (.bool c.negated),
    Json.member? "formula_fields" c.formulaFields fun fs => .array (fs.map .string),
    Json.member? "formula_op" c.formulaOp .string]

/-- Reads the JSON form. -/
def ofJson? (j : Json) : Option DraftClause := do
  let r ← j.record? 7
  let field ← r.optional? 0 ["field"] Json.text?
  let operator ← r.required? 1 ["operator"] Operator.ofJson?
  let value ← r.required? 2 ["value"] Value.ofJson?
  let connective ← r.withDefault? 3 ["condition"] none connectiveOfJson?
  let negated ← r.withDefault? 4 ["not"] false Json.flag?
  let formulaFields ← r.optional? 5 ["formula_fields", "fields"] (Json.list? Json.text?)
  let formulaOp ← r.optional? 6 ["formula_op", "math_operation"] Json.text?
  return { field, operator, value, connective, negated, formulaFields, formulaOp }

end DraftClause

end ChargeScreening
