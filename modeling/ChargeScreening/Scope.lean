import ChargeScreening.Json.Record

/-!
# Scopes

Where a rule or list entry applies, and the groupings a charge belongs to.

## Main definitions

* `Scope`: global, one company, one merchant-category family, one family of companies
* `FamilyMembership`: the groupings of a company
* `Groupings`: every grouping of a charge, with `Groupings.applies` and
  `Groupings.applicable`
-/

namespace ChargeScreening

/-- Where a rule or list entry applies. -/
inductive Scope where
  | global
  | company (id : String)
  | familyMcc (id : String)
  | familyCompany (id : String)
deriving DecidableEq, Repr, Inhabited

namespace Scope

/-- Whether the scope is the global one. -/
def isGlobal : Scope → Bool
  | .global => true
  | _ => false

/-- The scope as text: its kind, and its id behind a colon. -/
def text : Scope → String
  | .global => "global"
  | .company id => "company:" ++ id
  | .familyMcc id => "family_mcc:" ++ id
  | .familyCompany id => "family_company:" ++ id

/-- The JSON form: a `type`, and an `id` for every scope but the global one. -/
def toJson : Scope → Json
  | .global => .object [("type", .string "global")]
  | .company id => .object [("type", .string "company"), ("id", .string id)]
  | .familyMcc id => .object [("type", .string "family_mcc"), ("id", .string id)]
  | .familyCompany id => .object [("type", .string "family_company"), ("id", .string id)]

/-- The scope of a `type` word and an `id`. The global scope takes no id, or a `null` one. -/
def ofParts? (type : String) (id : Option Json) : Option Scope :=
  match type with
  | "global" =>
    match id with
    | none | some .null => some .global
    | _ => none
  | "company" => (id.bind Json.text?).map .company
  | "family_mcc" => (id.bind Json.text?).map .familyMcc
  | "family_company" => (id.bind Json.text?).map .familyCompany
  | _ => none

/-- Reads the JSON form: an object, or the type and the id in an array. -/
def ofJson? (j : Json) : Option Scope := do
  let r ← j.record? 2
  let type ← r.required? 0 ["type"] Json.text?
  let id ← r.find? 1 ["id"]
  match r, id with
  | .positional _, none => none
  | _, id => ofParts? type id

@[simp] theorem ofJson?_toJson (s : Scope) : ofJson? s.toJson = some s := by
  cases s <;> rfl

end Scope

/-- The merchant-category family and the families of companies that a company belongs to. -/
structure FamilyMembership where
  familyId : Option String := none
  familyCompanyIds : List String := []
deriving DecidableEq, Repr, Inhabited

namespace FamilyMembership

/-- The JSON form. -/
def toJson (m : FamilyMembership) : Json :=
  .object [("family_id", Json.ofText? m.familyId),
    ("family_company_ids", .array (m.familyCompanyIds.map .string))]

/-- Reads the JSON form. -/
def ofJson? (j : Json) : Option FamilyMembership := do
  let r ← j.record? 2
  let familyId ← r.optional? 0 ["family_id"] Json.text?
  let familyCompanyIds ← r.withDefault? 1 ["family_company_ids"] [] (Json.list? Json.text?)
  return { familyId, familyCompanyIds }

end FamilyMembership

/-- Every grouping that a charge belongs to. -/
structure Groupings where
  companyId : String
  familyId : Option String
  familyCompanyIds : List String
deriving DecidableEq, Repr

namespace Groupings

/-- The groupings of a charge of a company. -/
def ofCompany (companyId : String) (m : FamilyMembership) : Groupings :=
  ⟨companyId, m.familyId, m.familyCompanyIds⟩

/-- Whether something kept under a scope applies to the charge. -/
def applies (c : Groupings) : Scope → Bool
  | .global => true
  | .company id => id == c.companyId
  | .familyMcc id => c.familyId == some id
  | .familyCompany id => c.familyCompanyIds.contains id

/-- The global scope and every scope of one of the charge's groupings. -/
def applicable (c : Groupings) : List Scope :=
  [.global, .company c.companyId]
    ++ (c.familyId.map Scope.familyMcc).toList
    ++ c.familyCompanyIds.map .familyCompany

theorem applies_iff_mem_applicable (c : Groupings) (s : Scope) :
    c.applies s = true ↔ s ∈ c.applicable := by
  cases s with
  | global => simp [applies, applicable]
  | company id => simp [applies, applicable]
  | familyMcc id => simp [applies, applicable]
  | familyCompany id => simp [applies, applicable]

end Groupings

end ChargeScreening
