import ChargeScreening.Proofs.Authoring.Stored
import ChargeScreening.Proofs.Engine.Outcome
import ChargeScreening.Proofs.Engine.Results
import ChargeScreening.Proofs.Evaluation.Faults

/-!
# Which errors are recorded

A candidate that cannot be evaluated leaves an error in the result of its component. Evaluation has
more ways to fail than a stored candidate can bring about: a rule keeps a text that can be read, and
a list entry stands for a single comparison. So whatever is recorded is due to the attributes of the
charge.

## Main definitions

* `CandidateError.OfAttributes` — an error that is due to the attributes

## Main results

* `isOfAttributes_of_test` — how the candidates of a consistent store fail
* `consistent_and_errors_ofAttributes` — what operations store, and what decisions on it record
-/

namespace ChargeScreening

/-- A recorded error that is due to the attributes: a clause compares one that is missing, or a
value is of the wrong kind. -/
structure CandidateError.OfAttributes (err : CandidateError) : Prop where
  cause : ∃ e : EvalError, e.isOfAttributes = true ∧ err.message = e.message
  /-- No other failure has this text. -/
  only : ∀ e : EvalError, err.message = e.message → e.isOfAttributes = true

/-! ### Candidates -/

section Candidates

variable {s : Stores} {a : Attributes} {e : EvalError}

theorem isOfAttributes_of_evalText {r : Rule} (hr : r.Consistent)
    (h : evalText r.text a = .error e) : e.isOfAttributes = true := by
  obtain ⟨expression, hparse⟩ := hr.parses
  obtain ⟨path, -, -, rfl⟩ | ⟨c, -, hmismatch⟩ := evalText_eq_error hparse h
  · rfl
  · obtain ⟨operator, left, right, rfl⟩ := hmismatch.isTypeMismatch
    rfl

theorem isOfAttributes_of_matches {entry : ListEntry} (h : entry.matches a = .error e) :
    e.isOfAttributes = true := by
  obtain ⟨path, -, -, rfl⟩ | hmismatch := Clause.eval_eq_error rfl h
  · rfl
  · obtain ⟨operator, left, right, rfl⟩ := hmismatch.isTypeMismatch
    rfl

/-- The candidates of a store of consistent rules fail on the attributes alone. -/
theorem isOfAttributes_of_test (hrules : s.rules.Consistent) {scope : Groupings}
    {keys : SearchKeys} {component : Component} {c : Candidate}
    (hc : c ∈ s.candidates scope keys component) (h : c.test a = .error e) :
    e.isOfAttributes = true := by
  obtain ⟨r, hr, rfl⟩ | ⟨entry, -, rfl⟩ := Stores.mem_candidates hc
  · exact isOfAttributes_of_evalText (hrules r hr) h
  · exact isOfAttributes_of_matches h

/-- So does whatever their evaluation leaves in the result of a component. -/
theorem ofAttributes_of_mem_errorsOf (hrules : s.rules.Consistent) {scope : Groupings}
    {keys : SearchKeys} {component : Component} {err : CandidateError}
    (h : err ∈ errorsOf component (s.candidates scope keys component) a) : err.OfAttributes := by
  obtain ⟨c, hc, e, htest, rfl⟩ := mem_errorsOf_iff.mp h
  have he := isOfAttributes_of_test hrules hc htest
  refine ⟨⟨e, he, rfl⟩, fun other hother => ?_⟩
  rw [← EvalError.isOfAttributes_eq_of_message_eq hother]
  exact he

end Candidates

/-! ### Decisions -/

/-- Decisions on a store of consistent rules record only errors that are due to the attributes. -/
theorem Engine.ofAttributes_of_decide {e : Engine} {s : Stores} {w : Circumstances}
    {charge : Charge} {answer : Screening} (hrules : s.rules.Consistent)
    (h : e.decide s w charge = .ok answer) {result : ComponentResult}
    (hresult : result ∈ answer.verdict.components) {err : CandidateError}
    (herr : err ∈ result.errors) : err.OfAttributes := by
  rw [(decide_eq_ok h).2, screening_verdict] at hresult
  obtain ⟨entry, -, rfl⟩ := List.mem_map.mp hresult
  exact ofAttributes_of_mem_errorsOf hrules herr

/-- **Operations keep the rules consistent, and no decision records anything but faults of the
attributes.** Take any row of attempts on the empty store of rules, each under circumstances of its
own. The rules that are stored then agree with their clauses, and whatever charge is decided by
them, along with any list entries and families, the errors in the results are missing operands and
mismatches. -/
theorem consistent_and_errors_ofAttributes (attempts : List Attempt) :
    let rules := storeAfter .empty (serveAll .empty attempts)
    (∀ r ∈ rules.rules, r.Consistent)
      ∧ ∀ (e : Engine) (lists : ListStore) (families : FamilyStore) (w : Engine.Circumstances)
          (charge : Charge) (answer : Screening),
          e.decide { rules, lists, families } w charge = .ok answer →
            ∀ result ∈ answer.verdict.components, ∀ err ∈ result.errors, err.OfAttributes := by
  intro rules
  have hrules : rules.Consistent := consistent_serveAll attempts RuleStore.consistent_empty
  refine ⟨hrules, fun e lists families w charge answer h result hresult err herr => ?_⟩
  exact Engine.ofAttributes_of_decide hrules h hresult herr

/-- The theorem on a rule that becomes a yellow flag of a company and a formula over a currency: a
charge without identity signals misses an operand, and the currency is no number. -/
theorem consistent_and_errors_ofAttributes_flagNextToFormula :
    let declining (clause : DraftClause) : RuleDraft :=
      { decision := "declined", isGlobal := true, clauses := [clause] }
    let flag : RuleDraft :=
      { decision := "undecided", yellowFlag := true, companyId := some " c1 ",
        clauses := [{ field := some "identity.email_age_days", operator := .lt,
                      value := .number 2 }] }
    let large : DraftClause := { field := some "amount", operator := .gt, value := .number 1 }
    let sum : DraftClause :=
      { operator := .gt, value := .number 1, formulaOp := some "sum",
        formulaFields := some ["amount", "currency"] }
    let attempts : List Attempt :=
      [⟨.change (.create "a" (declining large) ⟨1, 0⟩), {}⟩,
        ⟨.change (.create "b" (declining sum) ⟨2, 0⟩), {}⟩,
        ⟨.change (.update "a" flag ⟨3, 0⟩), {}⟩]
    let rules := storeAfter .empty (serveAll .empty attempts)
    let charge : Charge := { companyId := "c1", amount := 5, currency := some "MXN" }
    let misfit : CandidateError := ⟨.globalRules, "b",
      "Type mismatch: cannot apply 'SUM' to currency (string) and number"⟩
    let missing : CandidateError := ⟨.yellowFlag, "a", "Missing operand: identity.email_age_days"⟩
    rules.rules.map (fun r => (r.scope, r.text, r.isIdentity))
        = [(.company "c1", "identity.email_age_days lt 2", true),
          (.global, "SUM (amount,currency) gt 1", false)]
      ∧ (∀ r ∈ rules.rules, r.Consistent)
      ∧ (∃ answer, Engine.decide {} { rules } {} charge = .ok answer
        ∧ answer.verdict.components.flatMap ComponentResult.errors = [misfit, missing])
      ∧ misfit.OfAttributes ∧ missing.OfAttributes := by
  intro declining flag large sum attempts rules charge misfit missing
  have hstored : rules.rules.map (fun r => (r.scope, r.text, r.isIdentity))
      = [(.company "c1", "identity.email_age_days lt 2", true),
        (.global, "SUM (amount,currency) gt 1", false)] := by
    decide +kernel
  have hrecorded : (Engine.decide {} { rules } {} charge).map
      (fun answer => answer.verdict.components.flatMap ComponentResult.errors)
        = .ok [misfit, missing] := by
    decide +kernel
  obtain ⟨hrules, herrors⟩ := consistent_and_errors_ofAttributes attempts
  obtain ⟨answer, hanswer⟩ : ∃ answer, Engine.decide {} { rules } {} charge = .ok answer :=
    Engine.exists_decide_of_undisturbed (undisturbed_default 2000) (check_eq_ok_iff.mpr (by decide))
  rw [hanswer] at hrecorded
  replace hrecorded := Except.ok.inj hrecorded
  have hattributes : ∀ err ∈ [misfit, missing], err.OfAttributes := by
    intro err herr
    rw [← hrecorded] at herr
    obtain ⟨result, hresult, herr⟩ := List.mem_flatMap.mp herr
    exact herrors {} {} {} {} charge answer hanswer result hresult err herr
  exact ⟨hstored, hrules, ⟨answer, hanswer, hrecorded⟩,
    hattributes misfit (List.mem_cons_self ..), hattributes missing (by simp)⟩

end ChargeScreening
