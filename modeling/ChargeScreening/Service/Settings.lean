import ChargeScreening.Engine.Settings

/-!
# Settings of the service

## Main definitions

* `ServiceSettings`: the address, the logging, the start-up data and the engine's settings
* `ServiceSettings.engine`: the settings of the engine
* `ServiceSettings.logDirectives`: what is logged at which level
-/

namespace ChargeScreening

/-- Settings of the service. -/
structure ServiceSettings where
  host : String := "127.0.0.1"
  port : Nat := 8080
  logLevel : String := "info"
  /-- The file with the start-up data. -/
  seedFile : Option String := none
  fetchTimeoutMs : Nat := 2000
  scoreTimeoutMs : Nat := 500
  concurrentFetch : Bool := true
  omniscore : Option ScoreEndpoint := none
  merchantScore : Option ScoreEndpoint := none
  defaultConsole : Option Console := none
deriving DecidableEq, Repr

namespace ServiceSettings

/-- The settings of the engine. -/
def engine (c : ServiceSettings) : EngineSettings where
  defaultConsole := c.defaultConsole.getD Console.standard
  concurrentFetch := c.concurrentFetch
  fetchTimeoutMs := c.fetchTimeoutMs
  scoreTimeoutMs := c.scoreTimeoutMs

/-- What is logged at which level: the parts of the service at the level set, and the transport
for debugging. -/
def logDirectives (c : ServiceSettings) : String :=
  let parts := ["server", "sdk", "runtime", "repository"].map fun part =>
    "fraudgate_" ++ part ++ "=" ++ c.logLevel
  String.intercalate "," (parts ++ ["tower_http=debug"])

/-- The JSON form. -/
def toJson (c : ServiceSettings) : Json :=
  let orNull {α : Type} (encode : α → Json) (value : Option α) : Json :=
    (value.map encode).getD .null
  .object [("host", .string c.host), ("port", .ofNat c.port), ("log_level", .string c.logLevel),
    ("seed_file", Json.ofText? c.seedFile),
    ("fetch_timeout_ms", .ofNat c.fetchTimeoutMs),
    ("score_timeout_ms", .ofNat c.scoreTimeoutMs),
    ("concurrent_fetch", .bool c.concurrentFetch),
    ("omniscore", orNull ScoreEndpoint.toJson c.omniscore),
    ("merchant_score", orNull ScoreEndpoint.toJson c.merchantScore),
    ("default_console", orNull Console.toJson c.defaultConsole)]

/-- Reads the JSON form. -/
def ofJson? (j : Json) : Option ServiceSettings := do
  let r ← j.record? 10
  let host ← r.withDefault? 0 ["host"] "127.0.0.1" Json.text?
  let port ← r.withDefault? 1 ["port"] 8080 (Json.natBelow? (Nat.pow 2 16))
  let logLevel ← r.withDefault? 2 ["log_level"] "info" Json.text?
  let seedFile ← r.optional? 3 ["seed_file"] Json.text?
  let fetchTimeoutMs ← r.withDefault? 4 ["fetch_timeout_ms"] 2000 millisOfJson?
  let scoreTimeoutMs ← r.withDefault? 5 ["score_timeout_ms"] 500 millisOfJson?
  let concurrentFetch ← r.withDefault? 6 ["concurrent_fetch"] true Json.flag?
  let omniscore ← r.optional? 7 ["omniscore"] ScoreEndpoint.ofJson?
  let merchantScore ← r.optional? 8 ["merchant_score"] ScoreEndpoint.ofJson?
  let defaultConsole ← r.optional? 9 ["default_console"] Console.ofJson?
  return { host, port, logLevel, seedFile, fetchTimeoutMs, scoreTimeoutMs, concurrentFetch,
           omniscore, merchantScore, defaultConsole }

end ServiceSettings

end ChargeScreening
