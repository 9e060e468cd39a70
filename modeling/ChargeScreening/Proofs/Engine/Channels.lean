import ChargeScreening.Engine.Basic
import ChargeScreening.Proofs.Engine.Results
import Mathlib.Data.List.Forall2

/-!
# The two channels of a verdict

A candidate is on trial or in force, and each kind has a channel of its own. What a verdict says in
a channel rests on the channel's candidates that match, and of those on no more than the decisions
they carry. Whoever is in the other channel, fails or does not match is a bystander: bystanders can
come, go and change, and candidates can stand in any order and any number of times, without moving
a decision.

## Main definitions

* `Carries` — the matching candidates of a channel carry a decision
* `CarrySame`, `MatchSame` — the same decisions are carried, or the same candidates match
* `ChannelReport` — what a verdict says in one channel

## Main results

* `report_verdict` — a report is settled by the decisions of the components in its channel
* `report_eq_of_carrySame` — families of candidates that carry the same decisions get the same
  report
-/

namespace ChargeScreening

variable {isTest : Bool} {a : Attributes} {xs ys : List Candidate}

/-! ### Decisions that are carried -/

/-- Some candidate of the channel matches and carries the decision. -/
def Carries (isTest : Bool) (a : Attributes) (candidates : List Candidate) (d : Decision) : Prop :=
  ∃ c ∈ candidates, c.isTest = isTest ∧ c.test a = .ok true ∧ c.decision = d

/-- The same decisions are carried in the channel. -/
def CarrySame (isTest : Bool) (a : Attributes) (xs ys : List Candidate) : Prop :=
  ∀ d, Carries isTest a xs d ↔ Carries isTest a ys d

/-- The same candidates of the channel match. The bystanders, the order and the repetitions may
differ. -/
def MatchSame (isTest : Bool) (a : Attributes) (xs ys : List Candidate) : Prop :=
  ∀ c : Candidate, c.isTest = isTest → c.test a = .ok true → (c ∈ xs ↔ c ∈ ys)

theorem MatchSame.carrySame (h : MatchSame isTest a xs ys) : CarrySame isTest a xs ys := by
  intro d
  refine exists_congr fun c => ?_
  constructor
  · rintro ⟨hc, htest, hok, hd⟩
    exact ⟨(h c htest hok).mp hc, htest, hok, hd⟩
  · rintro ⟨hc, htest, hok, hd⟩
    exact ⟨(h c htest hok).mpr hc, htest, hok, hd⟩

theorem exists_decision_iff {d : Decision} :
    (∃ m ∈ matchesOf isTest xs a, m.decision = d) ↔ Carries isTest a xs d := by
  constructor
  · rintro ⟨m, hm, rfl⟩
    obtain ⟨c, hc, htest, hok, rfl⟩ := mem_matchesOf_iff.mp hm
    exact ⟨c, hc, htest, hok, rfl⟩
  · rintro ⟨c, hc, htest, hok, rfl⟩
    exact ⟨_, mem_matchesOf_iff.mpr ⟨c, hc, htest, hok, rfl⟩, rfl⟩

/-- Which decision prevails is a matter of the decisions that are carried. -/
theorem prevailing_congr {ms ns : List Match}
    (h : ∀ d, (∃ m ∈ ms, m.decision = d) ↔ ∃ m ∈ ns, m.decision = d) (priority : List Decision) :
    prevailing priority ms = prevailing priority ns := by
  have hany (d : Decision) :
      (ms.any fun m => m.decision == d) = ns.any fun m => m.decision == d := by
    rw [Bool.eq_iff_iff, List.any_eq_true, List.any_eq_true]
    simpa only [beq_iff_eq] using h d
  rw [prevailing, prevailing]
  simp only [hany]

/-! ### Components -/

/-- The decision of a result in a channel. -/
def ComponentResult.decisionIn (isTest : Bool) (r : ComponentResult) : Decision :=
  if isTest then r.testDecision else r.decision

theorem decisionIn_evaluate_congr (h : CarrySame isTest a xs ys) (entry : ConsoleEntry) :
    (entry.evaluate xs a).decisionIn isTest = (entry.evaluate ys a).decisionIn isTest := by
  have hprevails : prevailing entry.effectivePriority (matchesOf isTest xs a)
      = prevailing entry.effectivePriority (matchesOf isTest ys a) := by
    refine prevailing_congr (fun d => ?_) _
    rw [exists_decision_iff, exists_decision_iff]
    exact h d
  cases isTest with
  | false => exact hprevails
  | true =>
    simp only [ComponentResult.decisionIn, ConsoleEntry.evaluate, if_true]
    rw [hprevails]

/-! ### Reports -/

/-- What a verdict says in one channel. -/
structure ChannelReport where
  decision : Decision
  decidedBy : Option Component
  /-- The decisions of the components, in console order. -/
  components : List (Component × Decision)
deriving DecidableEq, Repr

/-- What a verdict says in a channel. -/
def Verdict.report (isTest : Bool) (v : Verdict) : ChannelReport where
  decision := if isTest then v.testDecision else v.decision
  decidedBy := if isTest then v.testDecidedBy else v.decidedBy
  components := v.components.map fun r => (r.component, r.decisionIn isTest)

/-- The report that decisions of components amount to: the first decisive one settles it. -/
def ChannelReport.ofDecisions (decisions : List (Component × Decision)) : ChannelReport :=
  let first := decisions.find? fun p => p.2.isDecisive
  { decision := (first.map Prod.snd).getD .undecided
    decidedBy := first.map Prod.fst
    components := decisions }

/-- A report is settled by the decisions of the components in its channel. -/
theorem report_ofResults (isTest : Bool) (results : List ComponentResult) :
    (Verdict.ofResults results).report isTest
      = .ofDecisions (results.map fun r => (r.component, r.decisionIn isTest)) := by
  rw [ChannelReport.ofDecisions, List.find?_map, Option.map_map, Option.map_map]
  cases isTest <;> rfl

theorem report_verdict (isTest : Bool) (console : Console) (candidates : List (List Candidate))
    (a : Attributes) :
    (console.verdict candidates a).report isTest
      = .ofDecisions (List.zipWith
          (fun entry found => (entry.component, (entry.evaluate found a).decisionIn isTest))
          console.entries candidates) := by
  rw [Console.verdict, report_ofResults, List.map_zipWith]
  rfl

/-- What does not tell related items apart yields the same list from related lists. -/
theorem zipWith_congr_of_forall₂ {α β γ : Type} {R : β → β → Prop} {f : α → β → γ}
    (hf : ∀ a b b', R b b' → f a b = f a b') {bs bs' : List β} (h : List.Forall₂ R bs bs')
    (as : List α) : List.zipWith f as bs = List.zipWith f as bs' := by
  induction h generalizing as with
  | nil => rfl
  | cons hb _ ih =>
    cases as with
    | nil => rfl
    | cons a as => rw [List.zipWith_cons_cons, List.zipWith_cons_cons, hf a _ _ hb, ih]

/-- **The channels of a verdict keep apart.** Take two families of candidates for the components of
a console. If in some channel the same decisions are carried for every component, then the verdicts
say the same in this channel: the decision, the component that settles it, and the decision of
every component. So it is above all if the same candidates match in the channel. -/
theorem report_eq_of_carrySame (console : Console) (a : Attributes) (isTest : Bool)
    (family family' : List (List Candidate)) :
    (List.Forall₂ (CarrySame isTest a) family family' →
      (console.verdict family a).report isTest = (console.verdict family' a).report isTest)
      ∧ (List.Forall₂ (MatchSame isTest a) family family' →
        (console.verdict family a).report isTest = (console.verdict family' a).report isTest) := by
  have hcongr (h : List.Forall₂ (CarrySame isTest a) family family') :
      (console.verdict family a).report isTest = (console.verdict family' a).report isTest := by
    rw [report_verdict, report_verdict]
    refine congrArg _ (zipWith_congr_of_forall₂ (fun entry found found' hsame => ?_) h _)
    rw [decisionIn_evaluate_congr hsame]
  exact ⟨hcongr, fun h => hcongr (h.imp fun _ _ => MatchSame.carrySame)⟩

/-- The theorem on one rule in force. Next to it, and given twice, come a rule on trial, one that
cannot be evaluated and one that does not match; and in the other channel, where the rule on trial
decides, it can be exchanged for another one without the rules in force. -/
theorem report_eq_of_carrySame_trialNextToRule :
    let rule (id text : String) (decision : Decision) (isTest : Bool) : Candidate :=
      Rule.candidate { Rule.ofText id .global decision text ⟨0, 0⟩ with isTest := isTest }
    let inForce := rule "a" "country eq \"MX\"" .accepted false
    let onTrial := rule "b" "country ne \"US\"" .declined true
    let broken := rule "c" "currency eq \"MXN\"" .declined false
    let quiet := rule "d" "country eq \"US\"" .declined false
    let other := rule "e" "country in [\"MX\",\"US\"]" .declined true
    let a : Attributes := ⟨[("country", .text "MX")]⟩
    let console : Console := ⟨[⟨.globalRules, []⟩]⟩
    let crowd := [onTrial, broken, inForce, quiet, inForce]
    (MatchSame false a [inForce] crowd ∧ CarrySame true a crowd [other])
      ∧ (console.verdict [crowd] a).report false
        = ⟨.accepted, some .globalRules, [(.globalRules, .accepted)]⟩
      ∧ (console.verdict [crowd] a).report true
        = ⟨.declined, some .globalRules, [(.globalRules, .declined)]⟩ := by
  intro rule inForce onTrial broken quiet other a console crowd
  have hmatch : MatchSame false a [inForce] crowd := by
    intro c hforce hok
    constructor
    · intro hc
      rw [List.mem_singleton.mp hc]
      simp [crowd]
    · intro hc
      simp only [crowd, List.mem_cons, List.not_mem_nil, or_false] at hc
      rcases hc with rfl | rfl | rfl | rfl | rfl
      · cases hforce
      · exact absurd hok (by decide +kernel)
      · exact List.mem_singleton_self _
      · exact absurd hok (by decide +kernel)
      · exact List.mem_singleton_self _
  have hcarry : CarrySame true a crowd [other] := by
    have hcrowd : matchesOf true crowd a = [⟨"b", .declined⟩] := by decide +kernel
    have hother : matchesOf true [other] a = [⟨"e", .declined⟩] := by decide +kernel
    intro d
    rw [← exists_decision_iff, ← exists_decision_iff, hcrowd, hother]
    simp
  refine ⟨⟨hmatch, hcarry⟩, ?_, ?_⟩
  · rw [← (report_eq_of_carrySame console a false [[inForce]] [crowd]).2 (.cons hmatch .nil)]
    decide +kernel
  · rw [(report_eq_of_carrySame console a true [crowd] [[other]]).1 (.cons hcarry .nil)]
    decide +kernel

end ChargeScreening
