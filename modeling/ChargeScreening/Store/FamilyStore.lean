import ChargeScreening.Scope

/-!
# The store of family memberships

## Main definitions

* `FamilyStore`: the groupings of companies
* `FamilyStore.resolve`: those of one company
* `FamilyStore.set`: giving a company its groupings
-/

namespace ChargeScreening

/-- The groupings of companies. -/
structure FamilyStore where
  memberships : List (String × FamilyMembership) := []

namespace FamilyStore

/-- The groupings of a company; a company without an entry belongs to none. -/
def resolve (s : FamilyStore) (companyId : String) : FamilyMembership :=
  match s.memberships.find? fun p => p.1 == companyId with
  | some p => p.2
  | none => {}

/-- Gives a company its groupings, in place of those it had. -/
def set (s : FamilyStore) (companyId : String) (m : FamilyMembership) : FamilyStore :=
  ⟨(companyId, m) :: s.memberships.filter fun p => p.1 != companyId⟩

@[simp] theorem resolve_set_self (s : FamilyStore) (companyId : String) (m : FamilyMembership) :
    (s.set companyId m).resolve companyId = m := by
  simp [resolve, set]

theorem resolve_set_of_ne (s : FamilyStore) {companyId other : String} (m : FamilyMembership)
    (h : other ≠ companyId) : (s.set companyId m).resolve other = s.resolve other := by
  have hfind : (s.memberships.filter fun p => p.1 != companyId).find? (fun p => p.1 == other)
      = s.memberships.find? fun p => p.1 == other := by
    rw [List.find?_filter]
    congr 1
    funext p
    by_cases hp : p.1 = other <;> simp [hp, h]
  simp only [resolve, set, List.find?_cons, beq_false_of_ne (Ne.symm h), hfind]

end FamilyStore

end ChargeScreening
