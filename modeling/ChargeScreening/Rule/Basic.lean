import ChargeScreening.Rule.Clause
import ChargeScreening.Scope
import ChargeScreening.Timestamp

/-!
# Rules

## Main definitions

* `Rule`: a checked rule with its canonical text
* `Rule.ofText`: a rule from an id, a scope, a decision and a text
-/

namespace ChargeScreening

/-- A checked rule, as it is stored. -/
structure Rule where
  id : String
  name : String := ""
  description : Option String := none
  scope : Scope
  decision : Decision
  isTest : Bool := false
  isYellowFlag : Bool := false
  isGlobal : Bool := false
  /-- Whether the rule reads identity signals, which only the identity component serves. -/
  isIdentity : Bool := false
  clauses : List DraftClause := []
  /-- The canonical text that is evaluated. -/
  text : String
  createdAt : Timestamp
  updatedAt : Timestamp

namespace Rule

/-- A rule from its text alone. -/
def ofText (id : String) (scope : Scope) (decision : Decision) (text : String) (now : Timestamp) :
    Rule :=
  { id, scope, decision, text, isGlobal := scope.isGlobal, createdAt := now, updatedAt := now }

/-- The JSON form. -/
def toJson (r : Rule) : Json :=
  Json.objectOf [Json.member "id" (.string r.id),
    Json.member "name" (.string r.name),
    Json.member? "description" r.description .string,
    Json.member "scope" r.scope.toJson,
    Json.member "decision" r.decision.toJson,
    Json.member "is_test" (.bool r.isTest),
    Json.member "is_yellow_flag" (.bool r.isYellowFlag),
    Json.member "is_global" (.bool r.isGlobal),
    Json.member "is_identity" (.bool r.isIdentity),
    Json.member "clauses" (.array (r.clauses.map DraftClause.toJson)),
    Json.member "expression_text" (.string r.text),
    Json.member "created_at" r.createdAt.toJson,
    Json.member "updated_at" r.updatedAt.toJson]

/-- Reads the JSON form. -/
def ofJson? (j : Json) : Option Rule := do
  let r ← j.record? 13
  let id ← r.required? 0 ["id"] Json.text?
  let name ← r.withDefault? 1 ["name"] "" Json.text?
  let description ← r.optional? 2 ["description"] Json.text?
  let scope ← r.required? 3 ["scope"] Scope.ofJson?
  let decision ← r.required? 4 ["decision"] Decision.ofJson?
  let isTest ← r.withDefault? 5 ["is_test"] false Json.flag?
  let isYellowFlag ← r.withDefault? 6 ["is_yellow_flag"] false Json.flag?
  let isGlobal ← r.withDefault? 7 ["is_global"] false Json.flag?
  let isIdentity ← r.withDefault? 8 ["is_identity"] false Json.flag?
  let clauses ← r.withDefault? 9 ["clauses"] [] (Json.list? DraftClause.ofJson?)
  let text ← r.required? 10 ["expression_text"] Json.text?
  let createdAt ← r.required? 11 ["created_at"] Timestamp.ofJson?
  let updatedAt ← r.required? 12 ["updated_at"] Timestamp.ofJson?
  return { id, name, description, scope, decision, isTest, isYellowFlag, isGlobal, isIdentity,
           clauses, text, createdAt, updatedAt }

end Rule

end ChargeScreening
