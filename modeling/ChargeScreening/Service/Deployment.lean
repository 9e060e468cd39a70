import ChargeScreening.Authoring.Basic
import ChargeScreening.Engine.Basic
import ChargeScreening.Seed

/-!
# Deployments

An engine together with the stores it reads, and the operations on rules that change them.

## Main definitions

* `Deployment`: an engine and its stores
* `Deployment.assemble`: a deployment whose default console has been checked
* `Deployment.create`, `Deployment.update`, `Deployment.delete`, `Deployment.get`: operations on
  rules
* `Deployment.install`, `Deployment.createAll`: bringing in start-up data
-/

namespace ChargeScreening

/-- An engine and the stores it reads. -/
structure Deployment where
  engine : Engine := {}
  stores : Stores := {}
  /-- How many rules were created under an id that was not asked for. -/
  issued : Nat := 0

/-- The id of a rule whose author asks for none, given how many such rules there were before. -/
def freshRuleId (issued : Nat) : String :=
  "$" ++ toString (issued + 1)

/-- How many ids are used up when a creation has ended: one if it succeeded without an id that was
asked for. -/
def issuedAfter (issued : Nat) (id : Option String) (outcome : Except ServiceError Rule) : Nat :=
  match id, outcome with
  | none, .ok _ => issued + 1
  | _, _ => issued

namespace Deployment

/-- A deployment of an engine, whose default console may not name a component twice. -/
def assemble (engine : Engine) (stores : Stores) : Except ServiceError Deployment := do
  engine.settings.defaultConsole.check
  return { engine, stores }

/-- Decides a charge. -/
def decide (d : Deployment) (w : Engine.Circumstances) (charge : Charge) :
    Except ServiceError Screening :=
  d.engine.decide d.stores w charge

/-- The deployment with another store of rules. -/
def withRules (d : Deployment) (rules : RuleStore) : Deployment :=
  { d with stores.rules := rules }

/-- Carries out a script on the store of rules. -/
def author {α : Type} (d : Deployment) (w : Script.Circumstances) (script : Script α) :
    Except ServiceError α × Deployment :=
  let result := script.run w d.stores.rules
  (result.outcome, d.withRules result.store)

/-- Keeps a new rule, under an id that is asked for or else under a fresh one. The time is that of
the end. -/
def createTimed (d : Deployment) (w : Script.Circumstances) (now : Timestamp) (p : PinnedDraft) :
    Timed (Except ServiceError Rule) × Deployment :=
  let script := Authoring.create (p.id.getD (freshRuleId d.issued)) p.draft now
  let result := script.run w d.stores.rules
  let issued := issuedAfter d.issued p.id result.outcome
  (⟨result.time, result.outcome⟩, { d.withRules result.store with issued })

/-- Keeps a new rule, under an id that is asked for or else under a fresh one. -/
def create (d : Deployment) (w : Script.Circumstances) (now : Timestamp) (p : PinnedDraft) :
    Except ServiceError Rule × Deployment :=
  let (created, d') := d.createTimed w now p
  (created.value, d')

/-- Replaces the rule of an id. -/
def update (d : Deployment) (w : Script.Circumstances) (now : Timestamp) (id : String)
    (r : RuleDraft) : Except ServiceError Rule × Deployment :=
  d.author w (Authoring.update id r now)

/-- Removes the rule of an id. -/
def delete (d : Deployment) (w : Script.Circumstances) (id : String) :
    Except ServiceError Unit × Deployment :=
  d.author w (Authoring.delete id)

/-- The rule of an id. -/
def get (d : Deployment) (w : Script.Circumstances) (id : String) :
    Except ServiceError Rule × Deployment :=
  d.author w (Authoring.get id)

/-- Creates rules one after the other, and goes on where one is refused. -/
def createAll (d : Deployment) (w : Script.Circumstances) (now : Timestamp) :
    List PinnedDraft → List (Except ServiceError Rule) × Deployment
  | [] => ([], d)
  | p :: rest =>
    let (created, d') := d.createTimed w now p
    let (others, d'') := d'.createAll { w with start := created.time } now rest
    (created.value :: others, d'')

end Deployment

/-- Keeps the list entries and family memberships of start-up data. Nothing behind a list entry
that is refused is kept. -/
def Stores.install (s : Stores) (doc : SeedData) : Option StoreError × Stores :=
  match s.lists.insertAll doc.lists with
  | (some e, lists) => (some e, { s with lists })
  | (none, lists) =>
    (none, { s with
      lists
      families := doc.families.foldl (fun families p => families.set p.1 p.2) s.families })

end ChargeScreening
