import ChargeScreening.Console
import ChargeScreening.Rule.Error
import ChargeScreening.Store.Error

/-!
# Errors of the service

## Main definitions

* `ServiceError`: why an operation on rules or a decision fails
* `ServiceError.message`: its wording
* `ServiceError.isAuthoring`: whether the rule itself is to blame
-/

namespace ChargeScreening

/-- Why an operation on rules or a decision fails. -/
inductive ServiceError where
  /-- The rule is refused. -/
  | rule (cause : RuleError)
  /-- A store refuses a call. -/
  | store (cause : StoreError)
  /-- The caller gave up. -/
  | cancelled
  /-- A call to a store took longer than its limit. -/
  | deadlineExceeded (operation : String)
  /-- The console names a component twice. -/
  | repeatedComponent (component : Component)
deriving DecidableEq, Repr

namespace ServiceError

/-- What is wrong with a console that names a component twice. -/
def repeatedText (c : Component) : String :=
  "component '" ++ c.word ++ "' appears more than once"

/-- The wording. -/
def message : ServiceError → String
  | rule cause => "Invalid rule: " ++ cause.message
  | store cause => "Repository error: " ++ cause.message
  | cancelled => "Operation cancelled"
  | deadlineExceeded operation => "Deadline exceeded: " ++ operation
  | repeatedComponent component => "Invalid console: " ++ repeatedText component

/-- Whether the rule itself is to blame. -/
def isAuthoring : ServiceError → Bool
  | rule _ => true
  | _ => false

end ServiceError

/-- Refuses a console that names a component twice. -/
def Console.check (c : Console) : Except ServiceError Unit :=
  match c.repeated? with
  | some component => .error (.repeatedComponent component)
  | none => .ok ()

end ChargeScreening
