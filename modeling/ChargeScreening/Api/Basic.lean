import ChargeScreening.Api.Error
import ChargeScreening.Api.Route
import ChargeScreening.Json.Reader
import ChargeScreening.Service.Deployment

/-!
# Answering requests

## Main definitions

* `ApiRequest`, `ApiResponse`: requests and responses
* `Deployment.respond`: the response to a request, and the deployment after it
-/

namespace ChargeScreening

/-- A request. -/
structure ApiRequest where
  method : Method
  path : String
  body : String := ""
  /-- Whether the body is declared to be JSON. -/
  declaresJson : Bool := true

/-- A response. -/
structure ApiResponse where
  status : Nat
  body : Option Json := none

namespace ApiResponse

/-- The response to a request that is turned down. -/
def ofError (e : ApiError) : ApiResponse :=
  ⟨e.status, some e.toJson⟩

/-- The response with what an operation yields, or with its error. -/
def ofOutcome {α : Type} (status : Nat) (body : α → Option Json) :
    Except ServiceError α → ApiResponse
  | .ok a => ⟨status, body a⟩
  | .error e => ofError (.ofServiceError e)

end ApiResponse

/-- What the body of a request stands for. What follows the document in it does not count. -/
def ApiRequest.decode {α : Type} (q : ApiRequest) (decode : Json → Option α) :
    Except ApiError α :=
  if q.declaresJson then
    match (Json.parseFront? q.body).bind decode with
    | some a => .ok a
    | none => .error (.request "the body is not a JSON document of the expected form")
  else .error (.request "the body is not declared to be JSON")

namespace Deployment

/-- The state of health of the service. -/
def health : Json :=
  .object [("status", .string "healthy"), ("version", .string "0.1.0")]

/-- Decides the charge in the body. -/
def respondDecide (d : Deployment) (q : ApiRequest) : ApiResponse :=
  match q.decode Charge.ofJson? with
  | .error e => .ofError e
  | .ok charge => .ofOutcome 200 (fun s => some s.toJson) (d.decide {} charge)

/-- Creates the rule in the body. -/
def respondCreate (d : Deployment) (now : Timestamp) (q : ApiRequest) :
    ApiResponse × Deployment :=
  match q.decode PinnedDraft.ofJson? with
  | .error e => (.ofError e, d)
  | .ok p =>
    let (outcome, d') := d.create {} now p
    (.ofOutcome 201 (fun r => some r.toJson) outcome, d')

/-- Replaces the rule of an id by the one in the body. -/
def respondUpdate (d : Deployment) (now : Timestamp) (id : String) (q : ApiRequest) :
    ApiResponse × Deployment :=
  match q.decode RuleDraft.ofJson? with
  | .error e => (.ofError e, d)
  | .ok r =>
    let (outcome, d') := d.update {} now id r
    (.ofOutcome 200 (fun r => some r.toJson) outcome, d')

/-- Returns the rule of an id. -/
def respondGet (d : Deployment) (id : String) : ApiResponse × Deployment :=
  let (outcome, d') := d.get {} id
  (.ofOutcome 200 (fun r => some r.toJson) outcome, d')

/-- Removes the rule of an id. -/
def respondDelete (d : Deployment) (id : String) : ApiResponse × Deployment :=
  let (outcome, d') := d.delete {} id
  (.ofOutcome 204 (fun _ => none) outcome, d')

/-- The response of a route to a method that it knows. -/
def respondAt (d : Deployment) (now : Timestamp) (route : Route) (q : ApiRequest) :
    ApiResponse × Deployment :=
  match route with
  | .health => (⟨200, some health⟩, d)
  | .decide => (d.respondDecide q, d)
  | .rules => d.respondCreate now q
  | .rule segment =>
    match Text.percentDecode? segment with
    | none => (⟨400, none⟩, d)
    | some id =>
      match q.method with
      | .put => d.respondUpdate now id q
      | .delete => d.respondDelete id
      | _ => d.respondGet id

/-- The response to a request, and the deployment after it. Questions about the options of a path
are always welcome, and questions about a route without wanting its content get the status
alone. -/
def respond (d : Deployment) (now : Timestamp) (q : ApiRequest) : ApiResponse × Deployment :=
  if q.method = .options then (⟨200, none⟩, d)
  else
    match Route.ofPath? q.path with
    | none => (⟨404, none⟩, d)
    | some route =>
      if route.allows q.method then
        let (response, d') := d.respondAt now route q
        (if q.method = .head then { response with body := none } else response, d')
      else (⟨405, none⟩, d)

end Deployment

end ChargeScreening
