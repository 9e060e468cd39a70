import ChargeScreening.Verdict

/-!
# What results say

The result of a component and the verdict are computed by scanning lists. Here is what the scans
amount to: who is among the matches, which decision prevails, and which component settles the
verdict.

## Main definitions

* `Prevails` — the decision that comes first in a priority among those that are carried
* `Settles` — the first decisive result of a console

## Main results

* `mem_matchesOf_iff`, `mem_errorsOf_iff` — who is recorded
* `prevails_prevailing`, `settles_ofResults` — what is decided
-/

namespace ChargeScreening

/-! ### Matches and errors -/

section Recorded

variable {candidates : List Candidate} {a : Attributes}

theorem mem_matchesOf_iff {isTest : Bool} {m : Match} :
    m ∈ matchesOf isTest candidates a
      ↔ ∃ c ∈ candidates, c.isTest = isTest ∧ c.test a = .ok true ∧ m = ⟨c.id, c.decision⟩ := by
  rw [matchesOf, List.mem_filterMap]
  constructor
  · rintro ⟨c, hc, h⟩
    split at h
    · next htest =>
      split at h
      · next hok => exact ⟨c, hc, htest, hok, (Option.some.inj h).symm⟩
      · cases h
    · cases h
  · rintro ⟨c, hc, htest, hok, rfl⟩
    refine ⟨c, hc, ?_⟩
    rw [if_pos htest, hok]

theorem mem_errorsOf_iff {component : Component} {err : CandidateError} :
    err ∈ errorsOf component candidates a
      ↔ ∃ c ∈ candidates, ∃ e, c.test a = .error e ∧ err = ⟨component, c.id, e.message⟩ := by
  rw [errorsOf, List.mem_filterMap]
  constructor
  · rintro ⟨c, hc, h⟩
    split at h
    · next e herror => exact ⟨c, hc, e, herror, (Option.some.inj h).symm⟩
    · cases h
  · rintro ⟨c, hc, e, herror, rfl⟩
    refine ⟨c, hc, ?_⟩
    rw [herror]

variable (hordered : candidates.Pairwise fun c d => c.id < d.id)

include hordered in
/-- Candidates in the order of their ids match in the order of their ids. -/
theorem pairwise_matchesOf (isTest : Bool) :
    (matchesOf isTest candidates a).Pairwise fun m n => m.id < n.id := by
  refine hordered.filterMap _ fun c d hcd m hm n hn => ?_
  split at hm
  · split at hm
    · split at hn
      · split at hn
        · rw [← Option.some.inj hm, ← Option.some.inj hn]
          exact hcd
        · cases hn
      · cases hn
    · cases hm
  · cases hm

include hordered in
/-- Candidates in the order of their ids fail in the order of their ids. -/
theorem pairwise_errorsOf (component : Component) :
    (errorsOf component candidates a).Pairwise fun e f => e.candidateId < f.candidateId := by
  refine hordered.filterMap _ fun c d hcd e he f hf => ?_
  split at he
  · split at hf
    · rw [← Option.some.inj he, ← Option.some.inj hf]
      exact hcd
    · cases hf
  · cases he

end Recorded

/-! ### Decisions -/

/-- A decision prevails that some match carries and that no decision before it in the priority is
carried; `undecided` does if none of the priority is carried. -/
def Prevails (priority : List Decision) (matched : List Match) (d : Decision) : Prop :=
  (∃ before after, priority = before ++ d :: after ∧ (∃ m ∈ matched, m.decision = d)
      ∧ ∀ other ∈ before, ∀ m ∈ matched, m.decision ≠ other)
    ∨ (∀ other ∈ priority, ∀ m ∈ matched, m.decision ≠ other) ∧ d = .undecided

theorem any_decision_eq_false_iff {matched : List Match} {d : Decision} :
    (matched.any fun m => m.decision == d) = false ↔ ∀ m ∈ matched, m.decision ≠ d := by
  rw [List.any_eq_false]
  refine forall₂_congr fun m _ => ?_
  rw [beq_iff_eq]

theorem prevails_prevailing (priority : List Decision) (matched : List Match) :
    Prevails priority matched (prevailing priority matched) := by
  rw [prevailing]
  cases h : priority.find? fun d => matched.any fun m => m.decision == d with
  | none =>
    refine .inr ⟨fun other hother => ?_, rfl⟩
    rw [List.find?_eq_none] at h
    exact any_decision_eq_false_iff.mp (Bool.eq_false_iff.mpr (h other hother))
  | some d =>
    obtain ⟨hcarried, before, after, hpriority, hbefore⟩ := List.find?_eq_some_iff_append.mp h
    obtain ⟨m, hm, hd⟩ := List.any_eq_true.mp hcarried
    refine .inl ⟨before, after, hpriority, ⟨m, hm, eq_of_beq hd⟩, fun other hother => ?_⟩
    exact any_decision_eq_false_iff.mp (by simpa using hbefore other hother)

/-! ### Verdicts -/

/-- The decision of the first decisive result settles a console, and its component with it;
without one the console is undecided. -/
def Settles (decision : ComponentResult → Decision) (results : List ComponentResult)
    (d : Decision) (decidedBy : Option Component) : Prop :=
  (∃ before r after, results = before ++ r :: after ∧ decision r ≠ .undecided
      ∧ (∀ other ∈ before, decision other = .undecided) ∧ d = decision r
      ∧ decidedBy = some r.component)
    ∨ (∀ other ∈ results, decision other = .undecided) ∧ d = .undecided ∧ decidedBy = none

theorem isDecisive_iff {d : Decision} : d.isDecisive = true ↔ d ≠ .undecided :=
  bne_iff_ne

theorem isDecisive_eq_false_iff {d : Decision} : d.isDecisive = false ↔ d = .undecided := by
  rw [Decision.isDecisive, bne_eq_false_iff_eq]

theorem settles_find? (decision : ComponentResult → Decision) (results : List ComponentResult) :
    let first := results.find? fun r => (decision r).isDecisive
    Settles decision results ((first.map decision).getD .undecided)
      (first.map ComponentResult.component) := by
  intro first
  cases h : first with
  | none =>
    refine .inr ⟨fun other hother => ?_, rfl, rfl⟩
    exact isDecisive_eq_false_iff.mp (Bool.eq_false_iff.mpr (List.find?_eq_none.mp h other hother))
  | some r =>
    obtain ⟨hdecisive, before, after, hresults, hbefore⟩ := List.find?_eq_some_iff_append.mp h
    refine .inl ⟨before, r, after, hresults, isDecisive_iff.mp hdecisive, fun other hother => ?_,
      rfl, rfl⟩
    exact isDecisive_eq_false_iff.mp (by simpa using hbefore other hother)

/-- What a verdict says of the results it is folded from. -/
structure Folds (results : List ComponentResult) (v : Verdict) : Prop where
  components : v.components = results
  decision : Settles ComponentResult.decision results v.decision v.decidedBy
  testDecision : Settles ComponentResult.testDecision results v.testDecision v.testDecidedBy
  errors : v.errors = results.flatMap ComponentResult.errors

theorem folds_ofResults (results : List ComponentResult) : Folds results (.ofResults results) where
  components := rfl
  decision := settles_find? ComponentResult.decision results
  testDecision := settles_find? ComponentResult.testDecision results
  errors := rfl

end ChargeScreening
