import ChargeScreening.Service.Timing
import ChargeScreening.Store.RuleStore

/-!
# Scripts of calls to the store of rules

An operation on rules is a script: it makes one call to the store after the other, each depending
on the answers to those before, and looks at times whether its caller has given up. Between two
calls of one script the store may serve the calls of others.

## Main definitions

* `RuleCall`, `RuleStore.serve`: the calls and their answers
* `Script`: a script, with `Script.ask`, `Script.write`, `Script.checkpoint` to build it
* `Script.run`: a script carried out alone, under a fault and at its own pace

## Implementation notes

A script is data and not a function on stores, so that scripts can be cut up between their calls.
-/

namespace ChargeScreening

/-- A call to the store of rules, by the type of its answer. -/
inductive RuleCall : Type → Type where
  | find (q : Selection) : RuleCall (List Rule)
  | get (id : String) : RuleCall Rule
  | insert (r : Rule) : RuleCall Unit
  | update (r : Rule) : RuleCall Unit
  | delete (id : String) : RuleCall Unit

/-- A changed store as the answer to a call and the store after it. A refused change leaves the
store alone. -/
def RuleStore.settle (s : RuleStore) :
    Except StoreError RuleStore → Except StoreError Unit × RuleStore
  | .ok s' => (.ok (), s')
  | .error e => (.error e, s)

/-- The answer to a call, and the store after it. -/
def RuleStore.serve (s : RuleStore) {α : Type} : RuleCall α → Except StoreError α × RuleStore
  | .find q => (.ok (s.find q), s)
  | .get id =>
    match s.get? id with
    | some r => (.ok r, s)
    | none => (.error (.notFound id), s)
  | .insert r => s.settle (s.insert r)
  | .update r => s.settle (s.update r)
  | .delete id => s.settle (s.delete id)

/-- A script of calls to the store of rules. -/
inductive Script (α : Type) : Type 1 where
  | done (a : α)
  | fail (e : ServiceError)
  /-- Makes a call and goes on with its answer. -/
  | call {β : Type} (c : RuleCall β) (next : Except StoreError β → Script α)
  /-- Goes on unless the caller has given up. -/
  | checkpoint (next : Script α)

namespace Script

/-- Goes on with the outcome of a script. -/
def bind {α β : Type} : Script α → (α → Script β) → Script β
  | .done a, f => f a
  | .fail e, _ => .fail e
  | .call c next, f => .call c fun answer => (next answer).bind f
  | .checkpoint next, f => .checkpoint (next.bind f)

instance : Monad Script where
  pure := .done
  bind := .bind

/-- The outcome of a check of the rule. -/
def ofCheck {α : Type} : Except RuleError α → Script α
  | .ok a => .done a
  | .error e => .fail (.rule e)

/-- A call whose refusal ends the script. -/
def ask {α : Type} (c : RuleCall α) : Script α :=
  .call c fun
    | .ok a => .done a
    | .error e => .fail (.store e)

/-- A call that stores a rule. A conflict in the store means the same as a duplicate that is found
beforehand. -/
def write (c : RuleCall Unit) : Script Unit :=
  .call c fun
    | .ok () => .done ()
    | .error (.conflict existing) => .fail (.rule (.duplicateRule existing))
    | .error e => .fail (.store e)

/-- Ends the script if the caller has given up. -/
def unlessGivenUp : Script Unit :=
  .checkpoint (.done ())

/-! ### Carrying out a script -/

/-- The circumstances of a script: when it starts, how the store's calls go wrong, and when the
caller gives up. -/
structure Circumstances where
  start : Nat := 0
  fault : Fault := {}
  cancelAt : Option Nat := none
deriving DecidableEq, Repr

/-- The answer to a call under a fault, and the store after it. A call that fails does not reach
the store. -/
def Circumstances.serve (w : Circumstances) (s : RuleStore) {α : Type} (c : RuleCall α) :
    Except StoreError α × RuleStore :=
  match w.fault.failure with
  | some reason => (.error (.backend reason), s)
  | none => s.serve c

/-- What comes of a script: its outcome with the time of its end, and the store after it. -/
structure Result (α : Type) where
  outcome : Except ServiceError α
  store : RuleStore
  time : Nat

/-- Carries out a script from some time on. Every call takes the time of the fault's delay. -/
def runFrom {α : Type} (w : Circumstances) : Nat → Script α → RuleStore → Result α
  | time, .done a, s => ⟨.ok a, s, time⟩
  | time, .fail e, s => ⟨.error e, s, time⟩
  | time, .call c next, s =>
    let (answer, s') := w.serve s c
    (next answer).runFrom w (time + w.fault.delayMs) s'
  | time, .checkpoint next, s =>
    if givenUp w.cancelAt time then ⟨.error .cancelled, s, time⟩ else next.runFrom w time s

/-- Carries out a script. -/
def run {α : Type} (w : Circumstances) (script : Script α) (s : RuleStore) : Result α :=
  script.runFrom w w.start s

end Script

end ChargeScreening
