import ChargeScreening.Console
import ChargeScreening.ListEntry
import ChargeScreening.Rule.Basic

/-!
# Verdicts

Each component of a console is evaluated on its candidates, and the results are folded into the
verdict on the charge. Candidates on trial have a channel of their own, and one that cannot be
evaluated is recorded and counts as not matching.

## Main definitions

* `Candidate`: what a component evaluates
* `Match`, `CandidateError`, `ComponentResult`: the outcome of a component
* `prevailing`: the decision of several matches
* `ConsoleEntry.evaluate`: the result of a component
* `Verdict`, `Verdict.ofResults`: the verdict of results in console order
-/

namespace ChargeScreening

/-- Something a component evaluates: a rule or a list entry. -/
structure Candidate where
  id : String
  decision : Decision
  isTest : Bool
  /-- Whether it matches the attributes. -/
  test : Attributes → Except EvalError Bool

/-- A rule matches where its text is true. -/
def Rule.candidate (r : Rule) : Candidate :=
  ⟨r.id, r.decision, r.isTest, evalText r.text⟩

/-- A list entry matches where its clause is true. -/
def ListEntry.candidate (e : ListEntry) : Candidate :=
  ⟨e.id, e.decision, e.isTest, e.matches⟩

/-- A candidate that matched. -/
structure Match where
  id : String
  decision : Decision
deriving DecidableEq, Repr

namespace Match

/-- The JSON form. -/
def toJson (m : Match) : Json :=
  .object [("id", .string m.id), ("decision", m.decision.toJson)]

/-- Reads the JSON form. -/
def ofJson? (j : Json) : Option Match := do
  let r ← j.record? 2
  let id ← r.required? 0 ["id"] Json.text?
  let decision ← r.required? 1 ["decision"] Decision.ofJson?
  return { id, decision }

end Match

/-- A candidate that could not be evaluated. -/
structure CandidateError where
  component : Component
  candidateId : String
  message : String
deriving DecidableEq, Repr

namespace CandidateError

/-- The JSON form. -/
def toJson (e : CandidateError) : Json :=
  .object [("component", e.component.toJson), ("candidate_id", .string e.candidateId),
    ("message", .string e.message)]

/-- Reads the JSON form. -/
def ofJson? (j : Json) : Option CandidateError := do
  let r ← j.record? 3
  let component ← r.required? 0 ["component"] Component.ofJson?
  let candidateId ← r.required? 1 ["candidate_id"] Json.text?
  let message ← r.required? 2 ["message"] Json.text?
  return { component, candidateId, message }

end CandidateError

/-- The outcome of one component. -/
structure ComponentResult where
  component : Component
  decision : Decision
  /-- The decision of the candidates on trial. -/
  testDecision : Decision
  matched : List Match := []
  testMatched : List Match := []
  errors : List CandidateError := []
deriving DecidableEq, Repr

namespace ComponentResult

/-- The JSON form. -/
def toJson (r : ComponentResult) : Json :=
  .object [("component", r.component.toJson), ("decision", r.decision.toJson),
    ("test_decision", r.testDecision.toJson), ("matched", .array (r.matched.map Match.toJson)),
    ("test_matched", .array (r.testMatched.map Match.toJson)),
    ("errors", .array (r.errors.map CandidateError.toJson))]

/-- Reads the JSON form. -/
def ofJson? (j : Json) : Option ComponentResult := do
  let r ← j.record? 6
  let component ← r.required? 0 ["component"] Component.ofJson?
  let decision ← r.required? 1 ["decision"] Decision.ofJson?
  let testDecision ← r.required? 2 ["test_decision"] Decision.ofJson?
  let matched ← r.withDefault? 3 ["matched"] [] (Json.list? Match.ofJson?)
  let testMatched ← r.withDefault? 4 ["test_matched"] [] (Json.list? Match.ofJson?)
  let errors ← r.withDefault? 5 ["errors"] [] (Json.list? CandidateError.ofJson?)
  return { component, decision, testDecision, matched, testMatched, errors }

end ComponentResult

/-- The first decision of a priority that some match carries; `undecided` when there is none. -/
def prevailing (priority : List Decision) (matched : List Match) : Decision :=
  (priority.find? fun d => matched.any fun m => m.decision == d).getD .undecided

/-- The candidates of a channel that match, in order. -/
def matchesOf (isTest : Bool) (candidates : List Candidate) (a : Attributes) : List Match :=
  candidates.filterMap fun c =>
    if c.isTest = isTest then
      match c.test a with
      | .ok true => some ⟨c.id, c.decision⟩
      | _ => none
    else none

/-- The candidates that cannot be evaluated, in order. -/
def errorsOf (component : Component) (candidates : List Candidate) (a : Attributes) :
    List CandidateError :=
  candidates.filterMap fun c =>
    match c.test a with
    | .error e => some ⟨component, c.id, e.message⟩
    | .ok _ => none

/-- The result of a component on its candidates. Without a test channel the candidates on trial
leave the test decision undecided. -/
def ConsoleEntry.evaluate (e : ConsoleEntry) (candidates : List Candidate) (a : Attributes) :
    ComponentResult :=
  let matched := matchesOf false candidates a
  let testMatched := matchesOf true candidates a
  { component := e.component
    decision := prevailing e.effectivePriority matched
    testDecision :=
      if e.component.hasTestChannel then prevailing e.effectivePriority testMatched
      else .undecided
    matched, testMatched
    errors := errorsOf e.component candidates a }

/-- The verdict on a charge. -/
structure Verdict where
  decision : Decision
  testDecision : Decision
  /-- The component that settled the decision. -/
  decidedBy : Option Component := none
  /-- The component that settled the test decision. -/
  testDecidedBy : Option Component := none
  /-- The results, in console order. -/
  components : List ComponentResult
  errors : List CandidateError := []
deriving DecidableEq, Repr

namespace Verdict

/-- The verdict of results in console order: the first decisive decision wins, and the first
decisive test decision does so on its own. -/
def ofResults (results : List ComponentResult) : Verdict :=
  let first := results.find? fun r => r.decision.isDecisive
  let firstTest := results.find? fun r => r.testDecision.isDecisive
  { decision := (first.map ComponentResult.decision).getD .undecided
    testDecision := (firstTest.map ComponentResult.testDecision).getD .undecided
    decidedBy := first.map ComponentResult.component
    testDecidedBy := firstTest.map ComponentResult.component
    components := results
    errors := results.flatMap ComponentResult.errors }

/-- The result of a component. -/
def component? (v : Verdict) (c : Component) : Option ComponentResult :=
  v.components.find? fun r => r.component == c

/-- The JSON form. -/
def toJson (v : Verdict) : Json :=
  Json.objectOf [Json.member "decision" v.decision.toJson,
    Json.member "test_decision" v.testDecision.toJson,
    Json.member? "decided_by" v.decidedBy Component.toJson,
    Json.member? "test_decided_by" v.testDecidedBy Component.toJson,
    Json.member "components" (.array (v.components.map ComponentResult.toJson)),
    Json.member "errors" (.array (v.errors.map CandidateError.toJson))]

/-- Reads the JSON form. -/
def ofJson? (j : Json) : Option Verdict := do
  let r ← j.record? 6
  let decision ← r.required? 0 ["decision"] Decision.ofJson?
  let testDecision ← r.required? 1 ["test_decision"] Decision.ofJson?
  let decidedBy ← r.optional? 2 ["decided_by"] Component.ofJson?
  let testDecidedBy ← r.optional? 3 ["test_decided_by"] Component.ofJson?
  let components ← r.required? 4 ["components"] (Json.list? ComponentResult.ofJson?)
  let errors ← r.withDefault? 5 ["errors"] [] (Json.list? CandidateError.ofJson?)
  return { decision, testDecision, decidedBy, testDecidedBy, components, errors }

end Verdict

end ChargeScreening
