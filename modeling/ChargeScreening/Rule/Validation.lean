import ChargeScreening.Rule.Basic
import ChargeScreening.Rule.Compilation

/-!
# Checking rules

The checks a submitted rule goes through, in this order: its decision, the yellow flag, its scope,
its formulas, and the compilation of its clauses. The first failure is the answer.

## Main definitions

* `checkDecision`, `checkYellowFlag`, `checkScope`, `checkFormulas`: the single checks
* `RuleDraft.validate`: all of them, with the parts of the rule they yield
* `checkUnique`: whether another rule has the same text
-/

namespace ChargeScreening

/-- The decision that a word names. -/
def checkDecision (word : String) : Except RuleError Decision :=
  match Decision.ofWord? word with
  | some d => .ok d
  | none => .error (.invalidDecision word)

/-- A yellow-flag rule only raises flags, so its decision has to be `undecided`. -/
def checkYellowFlag (r : RuleDraft) : Except RuleError Unit :=
  if r.yellowFlag then
    match checkDecision r.decision with
    | .error e => .error e
    | .ok .undecided => .ok ()
    | .ok d => .error (.invalidYellowFlagDecision d)
  else .ok ()

/-- The scope of an id of some kind. -/
def ScopeField.scope : ScopeField → String → Scope
  | .company, id => .company id
  | .family, id => .familyMcc id
  | .familyCompany, id => .familyCompany id

/-- The scope a rule is meant for. A global rule names no scope id, any other exactly one. -/
def checkScope (r : RuleDraft) : Except RuleError Scope :=
  let ids := r.scopeIds
  if r.isGlobal then
    if ids.isEmpty then .ok .global else .error (.scopeConflict (ids.map Prod.fst))
  else
    match ids with
    | [] => .error .missingScope
    | [(field, id)] => .ok (field.scope id)
    | ids => .error (.ambiguousScope (ids.map Prod.fst))

/-- Whether a text cannot be the path of an attribute in a formula: it is empty or a number. -/
def isNoPath (text : String) : Bool :=
  text.isEmpty || (Decimal.read? text).isSome

/-- Checks the fields of a formula against its operation. -/
def checkFormulaFields (place : Nat) (op : MathOp) (fields : List String) :
    Except RuleError Unit :=
  if fields.length < 2 then .error (.invalidFormula place (.tooFewFields op fields.length))
  else
    match op.arity?.filter (· ≠ fields.length) with
    | some arity => .error (.invalidFormula place (.fieldCount op arity fields.length))
    | none =>
      match fields.find? isNoPath with
      | some text => .error (.invalidFormula place (.notAPath text))
      | none => .ok ()

/-- Checks the formula of a clause. A clause that says nothing about one passes. -/
def checkFormula (place : Nat) (c : DraftClause) : Except RuleError Unit :=
  let fields := (c.formulaFields.getD []).map Text.trim
  let word := (c.formulaOp.map Text.trim).filter (· ≠ "")
  match fields.isEmpty, word with
  | true, none => .ok ()
  | false, none => .error (.invalidFormula place .fieldsWithoutOperation)
  | true, some _ => .error (.invalidFormula place .operationWithoutFields)
  | false, some word =>
    match MathOp.ofWord? word with
    | none => .error (.invalidFormula place (.unknownOperation word))
    | some op => checkFormulaFields place op fields

/-- Checks the formulas of clauses, counted from a given place on. -/
def checkFormulasFrom : Nat → List DraftClause → Except RuleError Unit
  | _, [] => .ok ()
  | place, c :: rest =>
    match checkFormula place c with
    | .error e => .error e
    | .ok _ => checkFormulasFrom (place + 1) rest

/-- Checks the formulas of all clauses. -/
def checkFormulas (clauses : List DraftClause) : Except RuleError Unit :=
  checkFormulasFrom 0 clauses

/-- What the checks of a rule yield. -/
structure ValidatedRule where
  scope : Scope
  decision : Decision
  text : String
  /-- Whether the clauses name identity signals. -/
  isIdentity : Bool
deriving DecidableEq, Repr

/-- Runs all checks on a rule. -/
def RuleDraft.validate (r : RuleDraft) : Except RuleError ValidatedRule :=
  match checkDecision r.decision with
  | .error e => .error e
  | .ok decision =>
    match checkYellowFlag r with
    | .error e => .error e
    | .ok _ =>
      match checkScope r with
      | .error e => .error e
      | .ok scope =>
        match checkFormulas r.clauses with
        | .error e => .error e
        | .ok _ =>
          (compileText r.clauses).map fun text =>
            ⟨scope, decision, text, readsIdentity r.clauses⟩

/-- Refuses a text that another of the rules has. The rule that is being updated does not count. -/
def checkUnique (text : String) (updating : Option String) (existing : List Rule) :
    Except RuleError Unit :=
  match (existing.filter fun r => updating ≠ some r.id).find? fun r => r.text == text with
  | some r => .error (.duplicateRule r.id)
  | none => .ok ()

/-- The rule that a checked draft becomes. -/
def RuleDraft.build (r : RuleDraft) (id : String) (v : ValidatedRule) (now : Timestamp) :
    Rule where
  id := id
  name := r.name
  description := r.description
  scope := v.scope
  decision := v.decision
  isTest := r.isTest
  isYellowFlag := r.yellowFlag
  isGlobal := v.scope.isGlobal
  isIdentity := v.isIdentity
  clauses := r.clauses
  text := v.text
  createdAt := now
  updatedAt := now

end ChargeScreening
