import ChargeScreening.Rule.Selection
import Mathlib.Logic.ExistsUnique

/-!
# Where a rule belongs

Every rule belongs to one component, whatever charge it is looked at from. The query of a rule
component finds exactly the rules that belong to it and whose scope applies to the charge. So the
components split the rules that apply among themselves, and none is lost or counted twice.

## Main definitions

* `Rule.home` — the component that a rule belongs to
* `Component.Finds` — whether the query of a component finds a rule for a charge

## Main results

* `selects_forComponent?_iff` — what the query of a rule component finds
* `components_split_applicable` — a rule that applies is found by exactly one component
-/

namespace ChargeScreening

/-- The component of the plain rules of a scope. -/
def Scope.home : Scope → Component
  | .global => .globalRules
  | .company _ => .companyRules
  | .familyMcc _ => .familyMccRules
  | .familyCompany _ => .familyCompanyRules

/-- The component that a rule belongs to: yellow-flag rules have one, all other rules that read
identity signals have one, and the rest go by their scopes. -/
def Rule.home (r : Rule) : Component :=
  if r.isYellowFlag then .yellowFlag
  else if r.isIdentity then .identityModule
  else r.scope.home

variable {r : Rule} {scope : Groupings}

/-! ### The flags of a rule -/

theorem home_eq_yellowFlag_iff : r.home = .yellowFlag ↔ r.isYellowFlag = true := by
  rw [Rule.home]
  cases r.isYellowFlag <;> cases r.isIdentity <;> cases r.scope <;> simp [Scope.home]

theorem home_eq_identityModule_iff :
    r.home = .identityModule ↔ r.isIdentity = true ∧ r.isYellowFlag = false := by
  rw [Rule.home]
  cases r.isYellowFlag <;> cases r.isIdentity <;> cases r.scope <;> simp [Scope.home]

/-- A rule belongs to the component of its scope just if it is plain. -/
theorem home_eq_scope_home_iff {scope : Scope} :
    r.home = scope.home ↔ r.isPlain = true ∧ r.scope.home = scope.home := by
  rw [Rule.home, Rule.isPlain]
  cases r.isYellowFlag <;> cases r.isIdentity <;> cases scope <;> simp [Scope.home]

/-! ### Queries -/

theorem contains_applicable_iff : scope.applicable.contains r.scope = true
    ↔ scope.applies r.scope = true := by
  rw [List.contains_iff_mem, Groupings.applies_iff_mem_applicable]

/-- What a query for the plain rules of one kind of scope has to tell apart. -/
theorem plain_and_iff (kind : Scope) {found : Bool}
    (h : found = true ↔ r.scope.home = kind.home ∧ scope.applies r.scope = true) :
    (r.isPlain && found) = true ↔ r.home = kind.home ∧ scope.applies r.scope = true := by
  rw [Bool.and_eq_true, home_eq_scope_home_iff, h, and_assoc]

/-- **The query of a rule component finds the rules that belong to it** and whose scope applies to
the charge. Without a query there are none. -/
theorem selects_forComponent?_iff {c : Component} (hrules : c.listKind? = none) :
    (Selection.forComponent? c scope).any (fun q => q.selects r) = true
      ↔ r.home = c ∧ scope.applies r.scope = true := by
  cases c with
  | whitelist => cases hrules
  | blacklist => cases hrules
  | graylist => cases hrules
  | companyRules =>
    refine plain_and_iff (.company "") ?_
    cases r.scope <;> simp [Scope.home, Groupings.applies]
  | familyMccRules =>
    rw [Selection.forComponent?, Option.any_map]
    cases hfamily : scope.familyId with
    | none =>
      have hhome : Component.familyMccRules = (Scope.familyMcc "").home := rfl
      rw [Option.any_none, hhome, home_eq_scope_home_iff]
      cases r.scope <;> simp [Scope.home, Groupings.applies, hfamily]
    | some id =>
      refine plain_and_iff (.familyMcc "") ?_
      cases r.scope <;> simp [Scope.home, Groupings.applies, hfamily, eq_comm (a := id)]
  | familyCompanyRules =>
    rw [Selection.forComponent?]
    split
    · next hempty =>
      have hhome : Component.familyCompanyRules = (Scope.familyCompany "").home := rfl
      rw [List.isEmpty_iff] at hempty
      rw [Option.any_none, hhome, home_eq_scope_home_iff]
      cases r.scope <;> simp [Scope.home, Groupings.applies, hempty]
    · refine plain_and_iff (.familyCompany "") ?_
      cases r.scope <;> simp [Scope.home, Groupings.applies]
  | globalRules =>
    refine plain_and_iff .global ?_
    cases r.scope <;> simp [Scope.home, Scope.isGlobal, Groupings.applies]
  | identityModule =>
    rw [Selection.forComponent?, Option.any_some, Selection.selects, Bool.and_eq_true,
      Bool.and_eq_true, contains_applicable_iff, home_eq_identityModule_iff, Bool.not_eq_true']
  | yellowFlag =>
    rw [Selection.forComponent?, Option.any_some, Selection.selects, Bool.and_eq_true,
      contains_applicable_iff, home_eq_yellowFlag_iff]

/-! ### All components -/

/-- Whether the query of a component finds a rule for a charge. -/
def Component.Finds (c : Component) (scope : Groupings) (r : Rule) : Prop :=
  ∃ q, Selection.forComponent? c scope = some q ∧ q.selects r = true

/-- No rule belongs to a component that draws on a list. -/
theorem listKind?_home (r : Rule) : r.home.listKind? = none := by
  rw [Rule.home]
  cases r.isYellowFlag <;> cases r.isIdentity <;> cases r.scope <;> rfl

/-- A component finds the rules that belong to it and whose scope applies to the charge. The list
components have no query, and no rule belongs to them. -/
theorem finds_iff {c : Component} :
    c.Finds scope r ↔ r.home = c ∧ scope.applies r.scope = true := by
  cases hkind : c.listKind? with
  | none => rw [← selects_forComponent?_iff hkind, Option.any_eq_true, Component.Finds]
  | some kind =>
    constructor
    · rintro ⟨q, hq, -⟩
      cases c <;> cases hkind <;> cases hq
    · rintro ⟨rfl, -⟩
      rw [listKind?_home] at hkind
      cases hkind

/-- **The components split the rules that apply.** Whatever groupings a charge has, a rule whose
scope applies to it is found by exactly one component, and any other rule by none. The scopes that
apply are those of the charge's list of applicable scopes. -/
theorem components_split_applicable (scope : Groupings) (r : Rule) :
    ((∃! c : Component, c.Finds scope r) ↔ scope.applies r.scope = true)
      ∧ ((∀ c : Component, ¬c.Finds scope r) ↔ scope.applies r.scope = false)
      ∧ ∀ s : Scope, scope.applies s = true ↔ s ∈ scope.applicable := by
  refine ⟨⟨?_, fun happlies => ?_⟩, ⟨fun hnone => ?_, fun hforeign c hc => ?_⟩, fun s => ?_⟩
  · rintro ⟨c, hc, -⟩
    exact (finds_iff.mp hc).2
  · exact ⟨r.home, finds_iff.mpr ⟨rfl, happlies⟩, fun c hc => (finds_iff.mp hc).1.symm⟩
  · exact Bool.eq_false_iff.mpr fun happlies => hnone r.home (finds_iff.mpr ⟨rfl, happlies⟩)
  · rw [(finds_iff.mp hc).2] at hforeign
    cases hforeign
  · exact scope.applies_iff_mem_applicable s

end ChargeScreening
