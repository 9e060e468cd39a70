import ChargeScreening.Proofs.Authoring.Stored
import ChargeScreening.Proofs.Engine.Decisions

/-!
# What yellow flags decide

Nothing in the evaluation of a component keeps a yellow flag from deciding: a priority may name any
decision, and the first decision that a match carries prevails. It is the checks of the operations
that do. A yellow flag is stored with the decision that decides nothing, also when it comes about by
an update, and no other rule gets into its component.

## Main definitions

* `Verdict.SparesFlags` — a verdict in which yellow flags have no say

## Main results

* `prevailing_eq_undecided` — matches that are undecided leave everything undecided
* `sparesFlags_of_attempts` — whatever operations store, yellow flags never decide
-/

namespace ChargeScreening

/-- A verdict in which yellow flags are reported but have no say. In the test channel the identity
module has none either. -/
structure Verdict.SparesFlags (v : Verdict) : Prop where
  decision : ∀ result ∈ v.components, result.component = .yellowFlag →
    result.decision = .undecided ∧ result.testDecision = .undecided
  matched : ∀ result ∈ v.components, result.component = .yellowFlag →
    (∀ m ∈ result.matched, m.decision = .undecided)
      ∧ ∀ m ∈ result.testMatched, m.decision = .undecided
  decidedBy : v.decidedBy ≠ some .yellowFlag
  testDecidedBy : v.testDecidedBy ≠ some .yellowFlag ∧ v.testDecidedBy ≠ some .identityModule

/-! ### Results -/

/-- Whatever the priority, matches that are undecided leave a component undecided. -/
theorem prevailing_eq_undecided {priority : List Decision} {matched : List Match}
    (h : ∀ m ∈ matched, m.decision = .undecided) : prevailing priority matched = .undecided := by
  obtain ⟨-, -, -, ⟨m, hm, hcarried⟩, -⟩ | ⟨-, hnone⟩ := prevails_prevailing priority matched
  · rw [← hcarried, h m hm]
  · exact hnone

/-- The component that settles a console has a decisive result in it. -/
theorem Settles.exists_decisive {decision : ComponentResult → Decision}
    {results : List ComponentResult} {d : Decision} {decidedBy : Option Component}
    (h : Settles decision results d decidedBy) {c : Component} (hc : decidedBy = some c) :
    ∃ result ∈ results, result.component = c ∧ decision result ≠ .undecided := by
  obtain ⟨before, result, after, rfl, hdecisive, -, -, hby⟩ | ⟨-, -, hby⟩ := h
  · refine ⟨result, List.mem_append_right before (List.mem_cons_self ..), ?_, hdecisive⟩
    exact Option.some.inj (hby.symm.trans hc)
  · rw [hby] at hc
    cases hc

section Evaluate

variable {s : Stores} {scope : Groupings} {keys : SearchKeys} {a : Attributes}
  {entry : ConsoleEntry}

/-- Among consistent rules, the candidates of the yellow flags decide nothing. -/
theorem decision_eq_undecided_of_mem_candidates (hrules : s.rules.Consistent) {c : Candidate}
    (hc : c ∈ s.candidates scope keys .yellowFlag) : c.decision = .undecided := by
  obtain ⟨rules, hcandidates, hmem, -⟩ := exists_candidates_eq s scope keys (c := .yellowFlag) rfl
  rw [hcandidates] at hc
  obtain ⟨r, hr, rfl⟩ := List.mem_map.mp hc
  obtain ⟨hstored, hhome, -⟩ := (hmem r).mp hr
  exact (hrules r hstored).decision (home_eq_yellowFlag_iff.mp hhome)

/-- So do their matches, in both channels. -/
theorem decision_eq_undecided_of_mem_matchesOf (hrules : s.rules.Consistent) {isTest : Bool}
    {m : Match} (hm : m ∈ matchesOf isTest (s.candidates scope keys .yellowFlag) a) :
    m.decision = .undecided := by
  obtain ⟨c, hc, -, -, rfl⟩ := mem_matchesOf_iff.mp hm
  exact decision_eq_undecided_of_mem_candidates hrules hc

/-- Among consistent rules, the yellow flags leave their component undecided. -/
theorem evaluate_yellowFlag (hrules : s.rules.Consistent) (hflag : entry.component = .yellowFlag) :
    let result := entry.evaluate (s.candidates scope keys entry.component) a
    result.decision = .undecided ∧ (∀ m ∈ result.matched, m.decision = .undecided)
      ∧ ∀ m ∈ result.testMatched, m.decision = .undecided := by
  intro result
  have hmatches (isTest : Bool) : ∀ m ∈ matchesOf isTest
      (s.candidates scope keys entry.component) a, m.decision = .undecided := by
    intro m hm
    rw [hflag] at hm
    exact decision_eq_undecided_of_mem_matchesOf hrules hm
  exact ⟨prevailing_eq_undecided (hmatches false), hmatches false, hmatches true⟩

/-- A component without a test channel is undecided there. -/
theorem testDecision_evaluate {candidates : List Candidate}
    (h : entry.component.hasTestChannel = false) :
    (entry.evaluate candidates a).testDecision = .undecided := by
  rw [ConsoleEntry.evaluate, h]
  rfl

end Evaluate

/-! ### Verdicts -/

/-- The answer to a charge spares yellow flags if the stored rules are consistent, whatever the
console and its priorities. -/
theorem sparesFlags_screening (e : Engine) {s : Stores} (hrules : s.rules.Consistent)
    (charge : Charge) (x y : Float) : (e.screening s charge x y).verdict.SparesFlags := by
  rw [Engine.screening_verdict]
  set results := (e.console charge).entries.map fun entry => entry.evaluate
    (s.candidates (s.groupings charge) (searchKeys charge.attributes) entry.component)
    (charge.scored x y) with hresults
  have hfolds := folds_ofResults results
  have hflags : ∀ result ∈ results, result.component = .yellowFlag →
      result.decision = .undecided ∧ (∀ m ∈ result.matched, m.decision = .undecided)
        ∧ ∀ m ∈ result.testMatched, m.decision = .undecided := by
    rw [hresults, List.forall_mem_map]
    exact fun entry _ hflag => evaluate_yellowFlag hrules hflag
  have htest : ∀ result ∈ results, result.component.hasTestChannel = false →
      result.testDecision = .undecided := by
    rw [hresults, List.forall_mem_map]
    exact fun entry _ hchannel => testDecision_evaluate hchannel
  have htestDecidedBy (c : Component) (hchannel : c.hasTestChannel = false) :
      (Verdict.ofResults results).testDecidedBy ≠ some c := by
    intro hby
    obtain ⟨result, hresult, rfl, hdecisive⟩ := hfolds.testDecision.exists_decisive hby
    exact hdecisive (htest result hresult hchannel)
  refine ⟨fun result hresult hflag => ?_, fun result hresult hflag => ?_, fun hby => ?_,
    htestDecidedBy _ rfl, htestDecidedBy _ rfl⟩
  · exact ⟨(hflags result hresult hflag).1, htest result hresult (by rw [hflag]; rfl)⟩
  · exact (hflags result hresult hflag).2
  · obtain ⟨result, hresult, hflag, hdecisive⟩ := hfolds.decision.exists_decisive hby
    exact hdecisive (hflags result hresult hflag).1

/-- **Yellow flags never decide.** Take any row of attempts on the empty store of rules, each under
circumstances of its own, and decide any charge by the rules that are stored then, along with any
list entries and families and under any console. Yellow flags leave the decisions of their component
open, whatever its priority, and settle nothing. -/
theorem sparesFlags_of_attempts (attempts : List Attempt) (e : Engine) (lists : ListStore)
    (families : FamilyStore) (w : Engine.Circumstances) (charge : Charge) :
    let s : Stores := { rules := storeAfter .empty (serveAll .empty attempts), lists, families }
    (∀ answer, e.decide s w charge = .ok answer → answer.verdict.SparesFlags)
      ∧ ((e.console charge).components.Nodup → Undisturbed w e.settings.fetchTimeoutMs →
        ∃ answer, e.decide s w charge = .ok answer) := by
  intro s
  have hrules : s.rules.Consistent := consistent_serveAll attempts RuleStore.consistent_empty
  refine ⟨fun answer hanswer => ?_, fun hconsole hw => ?_⟩
  · rw [(Engine.decide_eq_ok hanswer).2]
    exact sparesFlags_screening e hrules charge _ _
  · exact Engine.exists_decide_of_undisturbed hw (check_eq_ok_iff.mpr hconsole)

/-- The theorem on a rule that declines and is then turned into a yellow flag, under a console that
lets the yellow flags speak first and would have them decline. To turn it without giving up its
decision is refused. -/
theorem sparesFlags_of_attempts_turnedIntoFlag :
    let declining : RuleDraft :=
      { decision := "declined", isGlobal := true,
        clauses := [{ field := some "amount", operator := .gt, value := .number 1 }] }
    let flag : RuleDraft := { declining with decision := "undecided", yellowFlag := true }
    let other : RuleDraft :=
      { declining with
        clauses := [{ field := some "amount", operator := .gt, value := .number 2 }] }
    let attempts : List Attempt :=
      [⟨.change (.create "a" declining ⟨1, 0⟩), {}⟩,
        ⟨.change (.update "a" { declining with yellowFlag := true } ⟨2, 0⟩), {}⟩,
        ⟨.change (.update "a" flag ⟨3, 0⟩), {}⟩,
        ⟨.change (.create "b" other ⟨4, 0⟩), {}⟩]
    let rules := storeAfter .empty (serveAll .empty attempts)
    let charge : Charge :=
      { companyId := "c1", amount := 5,
        console := some ⟨[⟨.yellowFlag, [.declined, .undecided]⟩, ⟨.globalRules, [.declined]⟩]⟩ }
    ((Engine.console {} charge).components.Nodup ∧ Undisturbed {} 2000)
      ∧ ∃ answer, Engine.decide {} { rules } {} charge = .ok answer ∧ answer.verdict.SparesFlags
        ∧ answer.verdict.components.map ComponentResult.matched
          = [[⟨"a", .undecided⟩], [⟨"b", .declined⟩]]
        ∧ answer.verdict.decidedBy = some .globalRules := by
  intro declining flag other attempts rules charge
  have hconsole : (Engine.console {} charge).components.Nodup := by decide
  have hw : Undisturbed {} 2000 := undisturbed_default 2000
  have hspares := sparesFlags_of_attempts attempts {} {} {} {} charge
  obtain ⟨answer, hanswer⟩ := hspares.2 hconsole hw
  have hreported : (Engine.decide {} { rules } {} charge).map (fun answer =>
      (answer.verdict.components.map ComponentResult.matched, answer.verdict.decidedBy))
      = .ok ([[⟨"a", .undecided⟩], [⟨"b", .declined⟩]], some .globalRules) := by
    decide +kernel
  rw [hanswer] at hreported
  obtain ⟨hmatched, hby⟩ := Prod.mk.inj (Except.ok.inj hreported)
  exact ⟨⟨hconsole, hw⟩, answer, hanswer, hspares.1 answer hanswer, hmatched, hby⟩

end ChargeScreening
