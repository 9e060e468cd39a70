import ChargeScreening.Proofs.Engine.Outcome
import ChargeScreening.Proofs.Engine.Results
import ChargeScreening.Proofs.Rule.Belonging
import Mathlib.Data.List.Forall2

/-!
# Decisions rule by rule

From the stores to the verdict, a rule takes part in a decision through the one component that it
belongs to, and only if its scope applies to the charge. What a component reports is said here of
the stored rules themselves, without mention of queries, candidates or scans.

## Main definitions

* `Rule.TakesPart` — whether a rule has a say in a component for a charge
* `RuleResult` — the result of a rule component, in terms of the stored rules
* `Decides` — what a decision says of a charge

## Main results

* `decide_undisturbed` — what is decided when nothing goes wrong
-/

namespace ChargeScreening

/-! ### Candidates -/

/-- Whether a rule has a say in a component for a charge. -/
def Rule.TakesPart (c : Component) (scope : Groupings) (r : Rule) : Prop :=
  r.home = c ∧ scope.applies r.scope = true

/-- The candidates of a rule component are the rules that take part in it. -/
theorem exists_candidates_eq (s : Stores) (scope : Groupings) (keys : SearchKeys) {c : Component}
    (hrules : c.listKind? = none) :
    ∃ rules : List Rule, s.candidates scope keys c = rules.map Rule.candidate
      ∧ (∀ r, r ∈ rules ↔ r ∈ s.rules.rules ∧ r.TakesPart c scope)
      ∧ rules.Pairwise fun r t => r.id < t.id := by
  have hselects (r : Rule) : (Selection.forComponent? c scope).any (fun q => q.selects r) = true
      ↔ r.TakesPart c scope := selects_forComponent?_iff hrules
  cases hquery : Selection.forComponent? c scope with
  | none =>
    refine ⟨[], ?_, fun r => ?_, .nil⟩
    · rw [Stores.candidates, Stores.fetch?, hrules, hquery]
      rfl
    · have hr := hselects r
      rw [hquery, Option.any_none] at hr
      constructor
      · intro h
        cases h
      · rintro ⟨-, h⟩
        cases hr.mpr h
  | some q =>
    refine ⟨s.rules.find q, ?_, fun r => ?_, s.rules.ordered.filter _⟩
    · rw [Stores.candidates, Stores.fetch?, hrules, hquery]
      rfl
    · have hr := hselects r
      rw [hquery, Option.any_some] at hr
      rw [RuleStore.find, List.mem_filter, hr]

/-! ### Results -/

/-- The result of a rule component on the attributes of a charge, in terms of the stored rules. What
is recorded stands in the order of the ids. -/
structure RuleResult (s : RuleStore) (scope : Groupings) (a : Attributes) (entry : ConsoleEntry)
    (result : ComponentResult) : Prop where
  matched : ∀ m, m ∈ result.matched ↔ ∃ r ∈ s.rules, r.TakesPart entry.component scope
    ∧ r.isTest = false ∧ evalText r.text a = .ok true ∧ m = ⟨r.id, r.decision⟩
  matched_ordered : result.matched.Pairwise fun m n => m.id < n.id
  testMatched : ∀ m, m ∈ result.testMatched ↔ ∃ r ∈ s.rules, r.TakesPart entry.component scope
    ∧ r.isTest = true ∧ evalText r.text a = .ok true ∧ m = ⟨r.id, r.decision⟩
  testMatched_ordered : result.testMatched.Pairwise fun m n => m.id < n.id
  errors : ∀ err, err ∈ result.errors ↔ ∃ r ∈ s.rules, r.TakesPart entry.component scope
    ∧ ∃ e, evalText r.text a = .error e ∧ err = ⟨entry.component, r.id, e.message⟩
  errors_ordered : result.errors.Pairwise fun e f => e.candidateId < f.candidateId
  decision : Prevails entry.effectivePriority result.matched result.decision
  /-- Identity rules and yellow flags on trial decide nothing. -/
  testDecision : if entry.component.hasTestChannel = true then
    Prevails entry.effectivePriority result.testMatched result.testDecision
    else result.testDecision = .undecided

section Evaluate

variable {rules : List Rule} {a : Attributes}

theorem mem_matchesOf_map_iff {isTest : Bool} {m : Match} :
    m ∈ matchesOf isTest (rules.map Rule.candidate) a ↔ ∃ r ∈ rules, r.isTest = isTest
      ∧ evalText r.text a = .ok true ∧ m = ⟨r.id, r.decision⟩ := by
  rw [mem_matchesOf_iff]
  constructor
  · rintro ⟨c, hc, h⟩
    obtain ⟨r, hr, rfl⟩ := List.mem_map.mp hc
    exact ⟨r, hr, h⟩
  · rintro ⟨r, hr, h⟩
    exact ⟨r.candidate, List.mem_map_of_mem hr, h⟩

theorem mem_errorsOf_map_iff {component : Component} {err : CandidateError} :
    err ∈ errorsOf component (rules.map Rule.candidate) a ↔ ∃ r ∈ rules,
      ∃ e, evalText r.text a = .error e ∧ err = ⟨component, r.id, e.message⟩ := by
  rw [mem_errorsOf_iff]
  constructor
  · rintro ⟨c, hc, h⟩
    obtain ⟨r, hr, rfl⟩ := List.mem_map.mp hc
    exact ⟨r, hr, h⟩
  · rintro ⟨r, hr, h⟩
    exact ⟨r.candidate, List.mem_map_of_mem hr, h⟩

end Evaluate

/-- A rule component that is evaluated on its candidates reports on the rules that take part in
it. -/
theorem ruleResult_evaluate (s : Stores) (scope : Groupings) (keys : SearchKeys) (a : Attributes)
    {entry : ConsoleEntry} (hrules : entry.component.listKind? = none) :
    RuleResult s.rules scope a entry
      (entry.evaluate (s.candidates scope keys entry.component) a) := by
  obtain ⟨rules, hcandidates, hmem, hordered⟩ := exists_candidates_eq s scope keys hrules
  have hpairwise : (rules.map Rule.candidate).Pairwise fun c d => c.id < d.id :=
    List.pairwise_map.mpr hordered
  have hpart {p : Rule → Prop} : (∃ r ∈ rules, p r)
      ↔ ∃ r ∈ s.rules.rules, r.TakesPart entry.component scope ∧ p r := by
    refine exists_congr fun r => ?_
    rw [hmem, and_assoc]
  rw [hcandidates]
  refine ⟨fun m => ?_, pairwise_matchesOf hpairwise false, fun m => ?_,
    pairwise_matchesOf hpairwise true, fun err => ?_, pairwise_errorsOf hpairwise entry.component,
    prevails_prevailing _ _, ?_⟩
  · rw [← hpart]
    exact mem_matchesOf_map_iff
  · rw [← hpart]
    exact mem_matchesOf_map_iff
  · rw [← hpart]
    exact mem_errorsOf_map_iff
  · split
    · next htest =>
      rw [ConsoleEntry.evaluate, if_pos htest]
      exact prevails_prevailing _ _
    · next htest => rw [ConsoleEntry.evaluate, if_neg htest]

/-! ### Decisions -/

/-- What a decision says of a charge: every component of the console has one result, in console
order, and the verdict is folded from them. -/
structure Decides (e : Engine) (s : Stores) (charge : Charge) (r : Screening) : Prop where
  chargeId : r.chargeId = charge.id
  omniscore : r.omniscore = e.lookUpOmniscore.1
  merchantScore : r.merchantScore = e.lookUpMerchantScore.1
  results : List.Forall₂
    (fun entry result => result.component = entry.component
      ∧ (entry.component.listKind? = none → RuleResult s.rules (s.groupings charge)
        (charge.scored r.omniscore r.merchantScore) entry result))
    (e.console charge).entries r.verdict.components
  verdict : Folds r.verdict.components r.verdict

theorem decides_screening (e : Engine) (s : Stores) (charge : Charge) :
    Decides e s charge
      (e.screening s charge e.lookUpOmniscore.1 e.lookUpMerchantScore.1) := by
  refine ⟨rfl, rfl, rfl, ?_, folds_ofResults _⟩
  rw [Engine.screening_verdict, Verdict.ofResults, List.forall₂_map_right_iff, List.forall₂_same]
  intro entry _
  exact ⟨rfl, fun hrules => ruleResult_evaluate _ _ _ _ hrules⟩

/-- **When nothing goes wrong, every charge is decided**, and each rule component reports exactly on
the stored rules that take part in it. -/
theorem decide_undisturbed (e : Engine) (s : Stores) (w : Engine.Circumstances) (charge : Charge)
    (hconsole : (e.console charge).components.Nodup)
    (hw : Undisturbed w e.settings.fetchTimeoutMs) :
    ∃ r, e.decide s w charge = .ok r ∧ Decides e s charge r := by
  obtain ⟨r, hr⟩ := Engine.exists_decide_of_undisturbed hw (check_eq_ok_iff.mpr hconsole)
  refine ⟨r, hr, ?_⟩
  rw [(Engine.decide_eq_ok hr).2]
  exact decides_screening e s charge

/-- The theorem on rules of a company, two of which read a score, and on global ones. In both
components a rule that declines and one that accepts match: the console names a priority by which
the company accepts, and the global rules fall back to the default one. One rule is on trial, and
one is about an attribute that the charge lacks. Of the scores one can be had, just in time, and the
other cannot. -/
theorem decide_undisturbed_globalAndTrial :
    let now : Timestamp := { seconds := 0 }
    let engine : Engine :=
      { omniscore := some { score := some 900, delayMs := 500 },
        merchantScore := some { score := none } }
    let rules : RuleStore :=
      { rules := [.ofText "a" .global .declined "amount gt 1" now,
          { Rule.ofText "b" (.company "c1") .accepted "amount gt 2" now with isTest := true },
          .ofText "c" (.company "c1") .declined "merchant_score lt 0" now,
          .ofText "d" (.company "c1") .accepted "omniscore gt 800" now,
          .ofText "e" .global .accepted "amount gt 1" now,
          .ofText "f" .global .declined "payer.email eq 'x'" now]
        ordered := by decide }
    let charge : Charge :=
      { companyId := "c1", amount := 5,
        console := some ⟨[⟨.companyRules, [.accepted, .declined]⟩, ⟨.globalRules, []⟩]⟩ }
    let company : ComponentResult :=
      { component := .companyRules, decision := .accepted, testDecision := .accepted,
        matched := [⟨"c", .declined⟩, ⟨"d", .accepted⟩], testMatched := [⟨"b", .accepted⟩] }
    let missing : CandidateError := ⟨.globalRules, "f", "Missing operand: payer.email"⟩
    let global : ComponentResult :=
      { component := .globalRules, decision := .declined, testDecision := .undecided,
        matched := [⟨"a", .declined⟩, ⟨"e", .accepted⟩], errors := [missing] }
    let verdict : Verdict :=
      { decision := .accepted, testDecision := .accepted, decidedBy := some .companyRules,
        testDecidedBy := some .companyRules, components := [company, global],
        errors := [missing] }
    ((engine.console charge).components.Nodup ∧ Undisturbed {} engine.settings.fetchTimeoutMs)
      ∧ ∃ r, engine.decide { rules } {} charge = .ok r ∧ Decides engine { rules } charge r
        ∧ r.omniscore = 900 ∧ r.merchantScore = -1 ∧ r.verdict = verdict := by
  intro now engine rules charge company missing global verdict
  have hconsole : (engine.console charge).components.Nodup := by decide
  have hw : Undisturbed {} engine.settings.fetchTimeoutMs := undisturbed_default _
  obtain ⟨r, hr, hdecides⟩ := decide_undisturbed engine { rules } {} charge hconsole hw
  have hverdict : (engine.decide { rules } {} charge).map (·.verdict) = .ok verdict := by
    decide +kernel
  rw [hr] at hverdict
  refine ⟨⟨hconsole, hw⟩, r, hr, hdecides, ?_, ?_, Except.ok.inj hverdict⟩
  · rw [hdecides.omniscore]
    decide +kernel
  · rw [hdecides.merchantScore]
    decide +kernel

end ChargeScreening
