import ChargeScreening.Expression.Error
import ChargeScreening.Rule.Draft

/-!
# Why a rule is refused

## Main definitions

* `FormulaReason`, `ClauseReason`: what is wrong with a clause
* `RuleError`: the causes, with `RuleError.code` and `RuleError.message`
-/

namespace ChargeScreening

/-- What is wrong with the formula of a clause. -/
inductive FormulaReason where
  | fieldsWithoutOperation
  | operationWithoutFields
  | unknownOperation (word : String)
  | tooFewFields (op : MathOp) (count : Nat)
  | fieldCount (op : MathOp) (arity count : Nat)
  /-- A blank text or a number in the place of an attribute path. -/
  | notAPath (text : String)
deriving DecidableEq, Repr

/-- The words of a message for it. -/
def FormulaReason.text : FormulaReason → String
  | .fieldsWithoutOperation => "formula fields given without a math operation"
  | .operationWithoutFields => "math operation given without formula fields"
  | .unknownOperation word => "unknown math operation '" ++ word ++ "'"
  | .tooFewFields op count => op.word ++ " needs at least 2 fields, got " ++ toString count
  | .fieldCount op arity count =>
    op.word ++ " needs exactly " ++ toString arity ++ " fields, got " ++ toString count
  | .notAPath text => "formula field '" ++ text ++ "' must be an attribute path"

/-- What is wrong with a clause. -/
inductive ClauseReason where
  | noClauses
  | fieldAndFormula
  | neitherFieldNorFormula
  | unsupportedValue (kind : String)
  | emptyList
  | listWithout (op : Operator)
deriving DecidableEq, Repr

/-- The words of a message for it. -/
def ClauseReason.text : ClauseReason → String
  | .noClauses => "rule has no clauses"
  | .fieldAndFormula => "clause sets both a field and a formula"
  | .neitherFieldNorFormula => "clause sets neither a field nor a formula"
  | .unsupportedValue kind => "unsupported " ++ kind ++ " value"
  | .emptyList => "'in' needs at least one value"
  | .listWithout op => "list values are only allowed with 'in', not '" ++ op.word ++ "'"

/-- Why a rule is refused. Clauses are counted from zero, in the order the author gives them. -/
inductive RuleError where
  | invalidFormula (clause : Nat) (reason : FormulaReason)
  /-- A rule that is not global names more than one scope id. -/
  | ambiguousScope (fields : List ScopeField)
  /-- A rule that is not global names no scope id. -/
  | missingScope
  /-- A global rule names a scope id. -/
  | scopeConflict (fields : List ScopeField)
  | invalidDecision (word : String)
  | invalidYellowFlagDecision (decision : Decision)
  /-- Another rule under the same scope has the same text. -/
  | duplicateRule (existingId : String)
  | invalidClause (clause : Nat) (reason : ClauseReason)
  /-- The text of the rule does not read back. -/
  | invalidExpression (cause : ParseError)
deriving DecidableEq, Repr

namespace RuleError

/-- The stable code of the error. -/
def code : RuleError → String
  | .invalidFormula .. => "INVALID_FORMULA"
  | .ambiguousScope _ => "AMBIGUOUS_SCOPE"
  | .missingScope => "MISSING_SCOPE"
  | .scopeConflict _ => "SCOPE_CONFLICT"
  | .invalidDecision _ => "INVALID_DECISION"
  | .invalidYellowFlagDecision _ => "INVALID_YELLOW_FLAG_DECISION"
  | .duplicateRule _ => "DUPLICATE_RULE"
  | .invalidClause .. => "INVALID_CLAUSE"
  | .invalidExpression _ => "INVALID_EXPRESSION"

/-- Field names with commas between them. -/
def fieldNames (fields : List ScopeField) : String :=
  String.intercalate ", " (fields.map ScopeField.word)

/-- The text of the error. -/
def message : RuleError → String
  | .invalidFormula clause reason =>
    "Invalid formula in clause " ++ toString clause ++ ": " ++ reason.text
  | .ambiguousScope fields =>
    "Ambiguous scope: only one of company_id, family_id, family_company_id may be set (got "
      ++ fieldNames fields ++ ")"
  | .missingScope =>
    "Missing scope: a non-global rule needs company_id, family_id or family_company_id"
  | .scopeConflict fields => "Scope conflict: a global rule cannot set " ++ fieldNames fields
  | .invalidDecision word => "Invalid decision: " ++ word
  | .invalidYellowFlagDecision decision =>
    "Invalid yellow flag decision: yellow flag rules must be undecided, got " ++ decision.word
  | .duplicateRule existingId =>
    "Duplicate rule: expression already stored as rule " ++ existingId
  | .invalidClause clause reason =>
    "Invalid clause " ++ toString clause ++ ": " ++ reason.text
  | .invalidExpression cause => "Invalid expression: " ++ cause.message

end RuleError

end ChargeScreening
