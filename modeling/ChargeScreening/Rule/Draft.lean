import ChargeScreening.Rule.Clause

/-!
# Rules as authors submit them

## Main definitions

* `RuleDraft`: a rule before it is checked
* `RuleDraft.scopeIds`: the scope ids it names
-/

namespace ChargeScreening

/-- A rule as an author submits it. -/
structure RuleDraft where
  name : String := ""
  description : Option String := none
  /-- The word for the decision, as it is written. -/
  decision : String
  isTest : Bool := false
  yellowFlag : Bool := false
  isGlobal : Bool := false
  companyId : Option String := none
  familyId : Option String := none
  familyCompanyId : Option String := none
  clauses : List DraftClause

/-- The kinds of ids that put a rule under a scope. -/
inductive ScopeField where
  | company
  | family
  | familyCompany
deriving DecidableEq, Repr

/-- The name of the field in messages. -/
def ScopeField.word : ScopeField → String
  | .company => "company_id"
  | .family => "family_id"
  | .familyCompany => "family_company_id"

namespace RuleDraft

/-- An id without the blanks around it, unless nothing is left. -/
def presentId? (id : Option String) : Option String :=
  (id.map Text.trim).filter (· ≠ "")

/-- The scope ids that are more than blanks, each with its kind, without the blanks around them. -/
def scopeIds (r : RuleDraft) : List (ScopeField × String) :=
  ((presentId? r.companyId).map (ScopeField.company, ·)).toList
    ++ ((presentId? r.familyId).map (ScopeField.family, ·)).toList
    ++ ((presentId? r.familyCompanyId).map (ScopeField.familyCompany, ·)).toList

/-- The JSON form. -/
def toJson (r : RuleDraft) : Json :=
  Json.objectOf [Json.member "name" (.string r.name),
    Json.member? "description" r.description .string,
    Json.member "decision" (.string r.decision),
    Json.member "is_test" (.bool r.isTest),
    Json.member "yellow_flag" (.bool r.yellowFlag),
    Json.member "is_global" (.bool r.isGlobal),
    Json.member? "company_id" r.companyId .string,
    Json.member? "family_id" r.familyId .string,
    Json.member? "family_company_id" r.familyCompanyId .string,
    Json.member "clauses" (.array (r.clauses.map DraftClause.toJson))]

/-- Reads a draft from the fields of a record. -/
def ofRecord? (r : Json.Record) : Option RuleDraft := do
  let name ← r.withDefault? 0 ["name"] "" Json.text?
  let description ← r.optional? 1 ["description"] Json.text?
  let decision ← r.required? 2 ["decision"] Json.text?
  let isTest ← r.withDefault? 3 ["is_test"] false Json.flag?
  let yellowFlag ← r.withDefault? 4 ["yellow_flag", "is_yellow_flag"] false Json.flag?
  let isGlobal ← r.withDefault? 5 ["is_global", "global"] false Json.flag?
  let companyId ← r.optional? 6 ["company_id"] Json.text?
  let familyId ← r.optional? 7 ["family_id"] Json.text?
  let familyCompanyId ← r.optional? 8 ["family_company_id"] Json.text?
  let clauses ← r.required? 9 ["clauses"] (Json.list? DraftClause.ofJson?)
  return { name, description, decision, isTest, yellowFlag, isGlobal, companyId, familyId,
           familyCompanyId, clauses }

/-- Reads the JSON form. -/
def ofJson? (j : Json) : Option RuleDraft :=
  (j.record? 10).bind ofRecord?

end RuleDraft

/-- A draft that may name the id to keep the rule under. -/
structure PinnedDraft where
  id : Option String := none
  draft : RuleDraft

/-- Reads a draft with its id from the members of an object; no other document will do. -/
def PinnedDraft.ofJson? : Json → Option PinnedDraft
  | .object members => do
    let r := Json.Record.named members
    let id ← r.optional? 0 ["id"] Json.text?
    let draft ← RuleDraft.ofRecord? r
    return { id, draft }
  | _ => none

end ChargeScreening
