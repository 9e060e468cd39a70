import ChargeScreening.Authoring.Script
import ChargeScreening.Rule.Validation

/-!
# Authoring rules

Every operation that stores a rule checks it first, on its own and against the rules already kept
under its scope, and ends with a single call that changes the store.

## Main definitions

* `Authoring.checked`: the checks
* `Authoring.create`, `Authoring.update`, `Authoring.delete`, `Authoring.get`: the operations
-/

namespace ChargeScreening.Authoring

/-- Checks a draft on its own and against the rules kept under its scope. -/
def checked (r : RuleDraft) (updating : Option String) : Script ValidatedRule := do
  let v ← Script.ofCheck r.validate
  let existing ← Script.ask (.find (.exact v.scope))
  Script.ofCheck (checkUnique v.text updating existing)
  return v

/-- Keeps a new rule under an id. -/
def create (id : String) (r : RuleDraft) (now : Timestamp) : Script Rule := do
  let v ← checked r none
  let rule := r.build id v now
  Script.unlessGivenUp
  Script.write (.insert rule)
  return rule

/-- Replaces the rule of an id. The moment at which it was created stays. -/
def update (id : String) (r : RuleDraft) (now : Timestamp) : Script Rule := do
  let current ← Script.ask (.get id)
  let v ← checked r (some id)
  let rule := { r.build id v now with createdAt := current.createdAt }
  Script.unlessGivenUp
  Script.write (.update rule)
  return rule

/-- Removes the rule of an id. -/
def delete (id : String) : Script Unit := do
  Script.unlessGivenUp
  Script.ask (.delete id)

/-- The rule of an id. -/
def get (id : String) : Script Rule :=
  Script.ask (.get id)

end ChargeScreening.Authoring
