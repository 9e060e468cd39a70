import ChargeScreening.Service.Settings
import ChargeScreening.Service.Deployment

/-!
# Starting the service

## Main definitions

* `StartupError`: why the service does not start
* `Deployment.start`: a deployment from settings and start-up data
-/

namespace ChargeScreening

/-- Why the service does not start. -/
inductive StartupError where
  /-- The settings are refused. -/
  | settings (cause : ServiceError)
  /-- The start-up data cannot be read. -/
  | unreadableSeed
  /-- A list entry of the start-up data is refused. -/
  | seedEntry (cause : StoreError)
  /-- A rule of the start-up data is refused. It goes by its id, or else by its name. -/
  | seedRule (label : String) (cause : ServiceError)
deriving DecidableEq, Repr

namespace StartupError

/-- The wording. -/
def message : StartupError → String
  | settings cause => cause.message
  | unreadableSeed => "Failed to load seed file"
  | seedEntry cause => cause.message
  | seedRule label _ => "Invalid seed rule " ++ label

/-- The error of an operation that is behind it, if there is one. -/
def cause? : StartupError → Option ServiceError
  | settings cause => some cause
  | unreadableSeed => none
  | seedEntry _ => none
  | seedRule _ cause => some cause

end StartupError

/-- The first rule that is refused, by its label, and why. -/
def firstRefused? : List PinnedDraft → List (Except ServiceError Rule) →
    Option (String × ServiceError)
  | p :: _, .error e :: _ => some (p.id.getD p.draft.name, e)
  | _ :: ps, .ok _ :: outcomes => firstRefused? ps outcomes
  | _, _ => none

namespace Deployment

/-- Brings in start-up data, all of which has to be accepted. -/
def seed (d : Deployment) (now : Timestamp) (text : String) : Except StartupError Deployment :=
  match SeedData.parse? text with
  | none => .error .unreadableSeed
  | some doc =>
    match d.stores.install doc with
    | (some e, _) => .error (.seedEntry e)
    | (none, stores) =>
      let (outcomes, d') := { d with stores }.createAll {} now doc.rules
      match firstRefused? doc.rules outcomes with
      | some (label, e) => .error (.seedRule label e)
      | none => .ok d'

/-- A deployment from settings, with start-up data if there is any. -/
def start (settings : ServiceSettings) (now : Timestamp) (seedText : Option String) :
    Except StartupError Deployment :=
  match Deployment.assemble { settings := settings.engine } {} with
  | .error e => .error (.settings e)
  | .ok d =>
    match seedText with
    | some text => d.seed now text
    | none => .ok d

end Deployment

end ChargeScreening
