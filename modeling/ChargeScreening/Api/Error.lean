import ChargeScreening.Json.Basic
import ChargeScreening.Service.Error

/-!
# Errors of the interface

## Main definitions

* `ApiError`: why a request is turned down
* `ApiError.status`, `ApiError.code`, `ApiError.message`: what the caller learns of it
* `ApiError.ofServiceError`: how errors of the service appear
-/

namespace ChargeScreening

/-- Why a request is turned down. -/
inductive ApiError where
  /-- The rule is refused. -/
  | rule (cause : RuleError)
  /-- The body or the console of the request is no good. -/
  | request (reason : String)
  | notFound (id : String)
  /-- The caller gave up. -/
  | cancelled
  | deadlineExceeded (operation : String)
  /-- The service is to blame. -/
  | internal (reason : String)
deriving DecidableEq, Repr

namespace ApiError

/-- The status of the response. -/
def status : ApiError → Nat
  | rule (.duplicateRule _) => 409
  | rule _ => 400
  | request _ => 400
  | notFound _ => 404
  | cancelled => 499
  | deadlineExceeded _ => 504
  | internal _ => 500

/-- The stable code of the error. -/
def code : ApiError → String
  | rule cause => cause.code
  | request _ => "INVALID_REQUEST"
  | notFound _ => "NOT_FOUND"
  | cancelled => "CANCELLED"
  | deadlineExceeded _ => "DEADLINE_EXCEEDED"
  | internal _ => "INTERNAL"

/-- The wording. -/
def message : ApiError → String
  | rule cause => "Invalid rule: " ++ cause.message
  | request reason => "Invalid request: " ++ reason
  | notFound id => "Not found: " ++ id
  | cancelled => "Request cancelled"
  | deadlineExceeded operation => "Deadline exceeded: " ++ operation
  | internal reason => "Internal error: " ++ reason

/-- The JSON form. -/
def toJson (e : ApiError) : Json :=
  .object [("error", .string e.message), ("code", .string e.code), ("status", .ofNat e.status)]

/-- How an error of the service appears to the caller. -/
def ofServiceError : ServiceError → ApiError
  | .rule cause => .rule cause
  | .store (.notFound id) => .notFound id
  | .store cause => .internal (ServiceError.store cause).message
  | .cancelled => .cancelled
  | .deadlineExceeded operation => .deadlineExceeded operation
  | .repeatedComponent component => .request (ServiceError.repeatedText component)

end ApiError

end ChargeScreening
