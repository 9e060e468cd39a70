import ChargeScreening.Engine.Settings
import ChargeScreening.Engine.Score
import ChargeScreening.Rule.Selection
import ChargeScreening.Service.Timing
import ChargeScreening.Store.FamilyStore
import ChargeScreening.Store.ListStore
import ChargeScreening.Store.RuleStore
import ChargeScreening.Verdict

/-!
# Deciding charges

A charge is decided in three stages: the groupings of its company are resolved, the candidates of
all components and the scores are fetched, and the components are evaluated in console order.

## Main definitions

* `Stores`: the three stores
* `Stores.fetch?`: the candidates of a component
* `Engine`: settings and score clients
* `Engine.Circumstances`: how the calls of a decision go wrong, and when its caller gives up
* `Screening`: the answer to a charge
* `Engine.decide`: deciding a charge

## Implementation notes

Nothing about a fetch depends on another one, so that fetching all at once needs no interleaving:
each fetch ends at a time of its own, and the earliest failure is the one that is reported.
-/

namespace ChargeScreening

/-- The stores that a decision reads. -/
structure Stores where
  rules : RuleStore := .empty
  lists : ListStore := {}
  families : FamilyStore := {}

/-- The candidates of a component for a charge, or `none` when no store needs to be asked for
them: list entries that the charge has no search key for, and rules of groupings that it does not
belong to. -/
def Stores.fetch? (s : Stores) (scope : Groupings) (keys : SearchKeys) (c : Component) :
    Option (List Candidate) :=
  match c.listKind? with
  | some kind =>
    if keys.isEmpty then none
    else
      some (((s.lists.find kind keys).filter fun e => scope.applies e.scope).map
        ListEntry.candidate)
  | none => (Selection.forComponent? c scope).map fun q => (s.rules.find q).map Rule.candidate

/-- The settings and the score clients by which charges are decided. -/
structure Engine where
  settings : EngineSettings := {}
  omniscore : Option ScoreSource := none
  merchantScore : Option ScoreSource := none

/-- How the calls of a decision go wrong, and when its caller gives up. By default nothing goes
wrong. -/
structure Engine.Circumstances where
  /-- The call that resolves the groupings. -/
  families : Fault := {}
  /-- The call for the candidates of a component. -/
  fetch : Component → Fault := fun _ => {}
  cancelAt : Option Nat := none

/-- The answer to a charge. -/
structure Screening where
  chargeId : String
  verdict : Verdict
  omniscore : Float
  merchantScore : Float

/-- The JSON form. -/
def Screening.toJson (s : Screening) : Json :=
  .object [("charge_id", .string s.chargeId), ("verdict", s.verdict.toJson),
    ("omniscore", .ofFloat s.omniscore), ("merchant_score", .ofFloat s.merchantScore)]

/-- The candidates of some components in console order, or why they cannot be had. -/
abbrev Fetched := Except ServiceError (List (List Candidate))

/-- The earliest of several failures, and of those at the same time the first. -/
def earliestFailure? {α : Type} :
    List (Timed (Except ServiceError α)) → Option (Timed ServiceError)
  | [] => none
  | r :: rest =>
    match r.value, earliestFailure? rest with
    | .error e, some later => some (if r.time ≤ later.time then ⟨r.time, e⟩ else later)
    | .error e, none => some ⟨r.time, e⟩
    | .ok _, later => later

/-- The verdict of a console on attributes, given the candidates of its components in order. -/
def Console.verdict (c : Console) (candidates : List (List Candidate)) (a : Attributes) :
    Verdict :=
  .ofResults (List.zipWith (fun entry found => entry.evaluate found a) c.entries candidates)

namespace Engine

/-- Fetches the candidates of a component, starting at some time. -/
def fetch (e : Engine) (s : Stores) (w : Circumstances) (scope : Groupings) (keys : SearchKeys)
    (start : Nat) (c : Component) : Timed (Except ServiceError (List Candidate)) :=
  match s.fetch? scope keys c with
  | none => ⟨start, .ok []⟩
  | some found =>
    await w.cancelAt e.settings.fetchTimeoutMs c.word start (w.fetch c) found

/-- Fetches the candidates of all components at the same time. The first failure ends the
fetching; otherwise it lasts as long as the slowest fetch. -/
def fetchTogether (e : Engine) (s : Stores) (w : Circumstances) (scope : Groupings)
    (keys : SearchKeys) (start : Nat) (components : List Component) : Timed Fetched :=
  let fetches := components.map (e.fetch s w scope keys start)
  match earliestFailure? fetches with
  | some failure => ⟨failure.time, .error failure.value⟩
  | none =>
    ⟨fetches.foldl (fun latest r => max latest r.time) start, fetches.mapM Timed.value⟩

/-- Fetches the candidates of the components one after the other. The first failure ends the
fetching. -/
def fetchInTurn (e : Engine) (s : Stores) (w : Circumstances) (scope : Groupings)
    (keys : SearchKeys) (start : Nat) : List Component → Timed Fetched
  | [] => ⟨start, .ok []⟩
  | c :: rest =>
    let first := e.fetch s w scope keys start c
    match first.value with
    | .error err => ⟨first.time, .error err⟩
    | .ok found =>
      let others := e.fetchInTurn s w scope keys first.time rest
      ⟨others.time, others.value.map (found :: ·)⟩

/-- Decides a charge. The time at which the scores are there matters only to a caller who has
given up by then, and not even to that one when the console is empty. -/
def decide (e : Engine) (s : Stores) (w : Circumstances) (charge : Charge) :
    Except ServiceError Screening := do
  let console := charge.console.getD e.settings.defaultConsole
  console.check
  let resolved := await w.cancelAt e.settings.fetchTimeoutMs "family resolution" 0 w.families
    (s.families.resolve charge.companyId)
  let scope := Groupings.ofCompany charge.companyId (← resolved.value)
  let keys := searchKeys charge.attributes
  let fetching := if e.settings.concurrentFetch then e.fetchTogether else e.fetchInTurn
  let fetched := fetching s w scope keys resolved.time console.components
  let candidates ← fetched.value
  let (omniscore, omniscoreTime) := ScoreSource.lookUp e.settings.scoreTimeoutMs e.omniscore
  let (merchantScore, merchantTime) := ScoreSource.lookUp e.settings.scoreTimeoutMs e.merchantScore
  let scoresTime := max omniscoreTime merchantTime
  let finish :=
    if e.settings.concurrentFetch then max fetched.time (resolved.time + scoresTime)
    else fetched.time + scoresTime
  if !console.entries.isEmpty && givenUp w.cancelAt finish then .error .cancelled
  else
    let verdict := console.verdict candidates (charge.scored omniscore merchantScore)
    .ok ⟨charge.id, verdict, omniscore, merchantScore⟩

end Engine

end ChargeScreening
