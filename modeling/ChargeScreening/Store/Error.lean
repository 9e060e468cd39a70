/-!
# Errors of the stores

## Main definitions

* `StoreError`: why a store refuses a call
* `StoreError.message`: its wording
-/

namespace ChargeScreening

/-- Why a store refuses a call. -/
inductive StoreError where
  /-- Nothing is kept under the id. -/
  | notFound (id : String)
  /-- Something with the same id or the same content is already kept, under this id. -/
  | conflict (existing : String)
  /-- The storage behind the store is out of order. -/
  | backend (reason : String)
deriving DecidableEq, Repr

namespace StoreError

/-- The wording. -/
def message : StoreError → String
  | notFound id => "Record not found: " ++ id
  | conflict existing => "Conflicts with existing record: " ++ existing
  | backend reason => "Repository backend error: " ++ reason

end StoreError

end ChargeScreening
