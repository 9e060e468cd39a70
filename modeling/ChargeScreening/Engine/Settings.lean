import ChargeScreening.Console

/-!
# Settings of the engine

## Main definitions

* `EngineSettings`: the console, the order of fetching, and the time limits
* `ScoreEndpoint`: where a score is asked for
-/

namespace ChargeScreening

/-- Settings of the engine. Times are in milliseconds. -/
structure EngineSettings where
  /-- The console of charges that bring none. -/
  defaultConsole : Console := Console.standard
  /-- Whether the candidates of all components are fetched at the same time. -/
  concurrentFetch : Bool := true
  /-- The limit of each call to a repository. -/
  fetchTimeoutMs : Nat := 2000
  /-- The limit of each request for a score. -/
  scoreTimeoutMs : Nat := 500
deriving DecidableEq, Repr

/-- Reads a time in milliseconds. -/
def millisOfJson? (j : Json) : Option Nat :=
  j.natBelow? (Nat.pow 2 64)

namespace EngineSettings

/-- The JSON form. -/
def toJson (c : EngineSettings) : Json :=
  .object [("default_console", c.defaultConsole.toJson),
    ("concurrent_fetch", .bool c.concurrentFetch),
    ("fetch_timeout_ms", .ofNat c.fetchTimeoutMs),
    ("score_timeout_ms", .ofNat c.scoreTimeoutMs)]

/-- Reads the JSON form. -/
def ofJson? (j : Json) : Option EngineSettings := do
  let r ← j.record? 4
  let defaultConsole ← r.withDefault? 0 ["default_console"] Console.standard Console.ofJson?
  let concurrentFetch ← r.withDefault? 1 ["concurrent_fetch"] true Json.flag?
  let fetchTimeoutMs ← r.withDefault? 2 ["fetch_timeout_ms"] 2000 millisOfJson?
  let scoreTimeoutMs ← r.withDefault? 3 ["score_timeout_ms"] 500 millisOfJson?
  return { defaultConsole, concurrentFetch, fetchTimeoutMs, scoreTimeoutMs }

end EngineSettings

/-- Where a score is asked for, and for how long at most. -/
structure ScoreEndpoint where
  url : String
  timeoutMs : Nat := 500
deriving DecidableEq, Repr

namespace ScoreEndpoint

/-- The JSON form. -/
def toJson (c : ScoreEndpoint) : Json :=
  .object [("url", .string c.url), ("timeout_ms", .ofNat c.timeoutMs)]

/-- Reads the JSON form. -/
def ofJson? (j : Json) : Option ScoreEndpoint := do
  let r ← j.record? 2
  let url ← r.required? 0 ["url"] Json.text?
  let timeoutMs ← r.withDefault? 1 ["timeout_ms"] 500 millisOfJson?
  return { url, timeoutMs }

end ScoreEndpoint

end ChargeScreening
