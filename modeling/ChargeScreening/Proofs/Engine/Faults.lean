import ChargeScreening.Proofs.Engine.Timeline

/-!
# Faults

Faults and delays can keep a decision from coming about, but they cannot change it: whatever
happens, a decision that comes about is the one that comes about when everything is answered at
once and the candidates are fetched in turn.

## Main definitions

* `Engine.calm` — the engine that fetches in turn and is given its scores
* `Engine.fetchingTogether` — the engine that fetches at the same time, or in turn
* `Unchanged` — a decision that faults and delays have not changed

## Main results

* `faults_never_change_decisions` — no decision that comes about is changed
-/

namespace ChargeScreening

namespace Engine

/-- The engine that fetches in turn and is given these scores at once. -/
def calm (e : Engine) (omniscore merchantScore : Float) : Engine where
  settings := { e.settings with concurrentFetch := false }
  omniscore := some { score := some omniscore }
  merchantScore := some { score := some merchantScore }

/-- The engine that fetches the candidates of all components at the same time, or in turn. -/
def fetchingTogether (e : Engine) (together : Bool) : Engine :=
  { e with settings := { e.settings with concurrentFetch := together } }

variable {e : Engine} {s : Stores} {charge : Charge}

/-- The calm engine decides every charge whose console is accepted. -/
theorem decide_calm (hcheck : (e.console charge).check = .ok ()) (x y : Float) :
    (e.calm x y).decide s {} charge = .ok (e.screening s charge x y) := by
  obtain ⟨r, hr⟩ := exists_decide_of_undisturbed (e := e.calm x y) (s := s)
    (undisturbed_default _) hcheck
  have homni : (e.calm x y).lookUpOmniscore.1 = x := by
    simp [lookUpOmniscore, calm, ScoreSource.lookUp]
  have hmerchant : (e.calm x y).lookUpMerchantScore.1 = y := by
    simp [lookUpMerchantScore, calm, ScoreSource.lookUp]
  have hscreening := (decide_eq_ok hr).2
  rw [homni, hmerchant] at hscreening
  rw [hr, hscreening]
  rfl

/-- Whether all calls pass does not depend on their order. -/
theorem exists_decide_fetchingTogether_iff {w : Circumstances} (hcancel : w.cancelAt = none) :
    (∃ r, (e.fetchingTogether true).decide s w charge = .ok r)
      ↔ ∃ r, (e.fetchingTogether false).decide s w charge = .ok r := by
  rw [exists_decide_iff hcancel, exists_decide_iff hcancel]
  rfl

end Engine

/-- A decision that faults and delays have not changed: with its scores, the calm engine decides the
same. -/
structure Unchanged (e : Engine) (s : Stores) (charge : Charge) (r : Screening) : Prop where
  calm : (e.calm r.omniscore r.merchantScore).decide s {} charge = .ok r
  omniscore : IsScore e.omniscore r.omniscore
  merchantScore : IsScore e.merchantScore r.merchantScore

variable {e : Engine} {s : Stores} {charge : Charge}

theorem unchanged_of_sound {r : Screening} (h : Sound e s charge (.ended (.ok r))) :
    Unchanged e s charge r := by
  cases h with
  | decided check omni merchant screening =>
    refine ⟨?_, omni, merchant⟩
    rw [Engine.decide_calm check, ← screening]

/-- **Faults and delays never change a decision.** Whatever happens in whatever order, and whatever
goes wrong in time, a decision that comes about is the one of the calm engine with its scores. If
nobody gives up, it comes about in turn whenever it does at the same time. -/
theorem faults_never_change_decisions (e : Engine) (s : Stores) (charge : Charge) :
    (∀ happenings r,
        ((Course.start e charge).run e s charge happenings).stage = .ended (.ok r) →
          Unchanged e s charge r)
      ∧ (∀ w r, e.decide s w charge = .ok r → Unchanged e s charge r)
      ∧ ∀ w : Engine.Circumstances, w.cancelAt = none →
        ((∃ r, (e.fetchingTogether true).decide s w charge = .ok r)
          ↔ ∃ r, (e.fetchingTogether false).decide s w charge = .ok r) := by
  refine ⟨?_, ?_, ?_⟩
  · intro happenings r h
    have hsound := sound_run e s charge happenings
    rw [h] at hsound
    exact unchanged_of_sound hsound
  · intro w r h
    obtain ⟨happenings, hrun⟩ := exists_run_eq_decide e s w charge
    have hsound := sound_run e s charge happenings
    rw [hrun, h] at hsound
    exact unchanged_of_sound hsound
  · intro w hcancel
    exact Engine.exists_decide_fetchingTogether_iff hcancel

/-- The theorem on a charge without an omniscore. One score comes before all candidates, the caller
gives up when the last component has been evaluated, and in time every fetch is slow. -/
theorem faults_never_change_decisions_slowFetch :
    let e : Engine :=
      { omniscore := some { score := none }, merchantScore := some { score := some 2.0 } }
    let rules : RuleStore :=
      { rules := [.ofText "a" .global .declined "amount gt 1" { seconds := 0 }]
        ordered := by decide }
    let s : Stores := { rules := rules }
    let charge : Charge :=
      { companyId := "c1", amount := 5.0,
        console := some ⟨[.ofComponent .globalRules, .ofComponent .companyRules]⟩ }
    let happenings : List Happening :=
      [.resolved .answered, .merchantScored true, .fetched .companyRules .answered,
        .omniscored true, .fetched .globalRules .answered, .goOn, .goOn, .goOn, .giveUp, .goOn]
    let w : Engine.Circumstances := { fetch := fun _ => { delayMs := 7 } }
    let r := e.screening s charge noScore 2.0
    (((Course.start e charge).run e s charge happenings).stage = .ended (.ok r)
        ∧ e.decide s w charge = .ok r ∧ w.cancelAt = none)
      ∧ Unchanged e s charge r ∧ ∃ inTurn, (e.fetchingTogether false).decide s w charge = .ok inTurn
        ∧ Unchanged (e.fetchingTogether false) s charge inTurn := by
  intro e rules s charge happenings w r
  have hrun : ((Course.start e charge).run e s charge happenings).stage = .ended (.ok r) := by rfl
  have hdecide : e.decide s w charge = .ok r := by rfl
  obtain ⟨hcourse, -, horder⟩ := faults_never_change_decisions e s charge
  obtain ⟨-, htime, -⟩ := faults_never_change_decisions (e.fetchingTogether false) s charge
  obtain ⟨inTurn, hinTurn⟩ := (horder w rfl).mp ⟨r, hdecide⟩
  exact ⟨⟨hrun, hdecide, rfl⟩, hcourse happenings r hrun, inTurn, hinTurn,
    htime w inTurn hinTurn⟩

end ChargeScreening
