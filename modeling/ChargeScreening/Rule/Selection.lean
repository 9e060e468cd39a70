import ChargeScreening.Rule.Basic
import ChargeScreening.Console

/-!
# Selecting rules

The queries by which rules are fetched. A plain rule is neither a yellow-flag rule nor one that
reads identity signals.

## Main definitions

* `Selection`: a query
* `Selection.selects`: whether a rule answers it
* `Selection.forComponent?`: the query of a rule component for a charge
-/

namespace ChargeScreening

/-- Whether the rule is neither a yellow flag nor reads identity signals. -/
def Rule.isPlain (r : Rule) : Bool :=
  !r.isYellowFlag && !r.isIdentity

/-- A query for rules. -/
inductive Selection where
  /-- Every rule kept under exactly this scope. -/
  | exact (scope : Scope)
  /-- The plain rules of a company. -/
  | company (id : String)
  /-- The plain rules of a merchant-category family. -/
  | familyMcc (id : String)
  /-- The plain rules of any of these families of companies. -/
  | familyCompany (ids : List String)
  /-- The plain global rules. -/
  | global
  /-- The rules under any of these scopes that read identity signals and are no yellow flags. -/
  | identity (scopes : List Scope)
  /-- The yellow-flag rules under any of these scopes. -/
  | yellowFlag (scopes : List Scope)
deriving DecidableEq, Repr

namespace Selection

/-- Whether a rule answers the query. -/
def selects (q : Selection) (r : Rule) : Bool :=
  match q with
  | .exact scope => r.scope == scope
  | .company id => r.isPlain && r.scope == .company id
  | .familyMcc id => r.isPlain && r.scope == .familyMcc id
  | .familyCompany ids =>
    r.isPlain && match r.scope with
      | .familyCompany id => ids.contains id
      | _ => false
  | .global => r.isPlain && r.scope.isGlobal
  | .identity scopes => r.isIdentity && !r.isYellowFlag && scopes.contains r.scope
  | .yellowFlag scopes => r.isYellowFlag && scopes.contains r.scope

/-- The query of a rule component for a charge. The list components have none, and neither has a
component whose kind of grouping the charge does not belong to. -/
def forComponent? (c : Component) (charge : Groupings) : Option Selection :=
  match c with
  | .whitelist | .blacklist | .graylist => none
  | .companyRules => some (.company charge.companyId)
  | .familyMccRules => charge.familyId.map .familyMcc
  | .familyCompanyRules =>
    if charge.familyCompanyIds.isEmpty then none
    else some (.familyCompany charge.familyCompanyIds)
  | .globalRules => some .global
  | .identityModule => some (.identity charge.applicable)
  | .yellowFlag => some (.yellowFlag charge.applicable)

end Selection

end ChargeScreening
