import ChargeScreening.Proofs.Engine.Outcome
import Mathlib.Logic.Function.Basic

/-!
# Decisions event by event

In the engine, time settles what happens first. Here nothing does: calls end in any order and in
any way, the caller gives up at any moment, also between the evaluations of two components, and the
decision goes on with whatever is there. Fetched at the same time, candidates come in any order;
fetched in turn, they come in console order.

## Main definitions

* `Happening` — what happens in the course of a decision
* `Stage`, `Course` — how far a decision is
* `Course.step`, `Course.run` — the decision after one happening and after a row of them
* `Sound` — what holds of every stage

## Main results

* `sound_run` — a decision that ends well is the answer to the charge
-/

namespace ChargeScreening

/-! ### Calls and scores -/

/-- How a call ends. -/
inductive Reply where
  | answered
  | failed (reason : String)
  | timedOut

/-- What a call comes to when it ends. Having given up overtakes every answer. -/
def Reply.settle {α : Type} (up : Bool) (operation : String) (answer : α) (reply : Reply) :
    Except ServiceError α :=
  if up then .error .cancelled
  else
    match reply with
    | .answered => .ok answer
    | .failed reason => .error (.store (.backend reason))
    | .timedOut => .error (.deadlineExceeded operation)

/-- The score that a look-up comes to. -/
def scoreOf (source : Option ScoreSource) (answered : Bool) : Float :=
  if answered then (source.bind ScoreSource.score).getD noScore else noScore

/-- A score is what the client answers, or stands for one that cannot be had. -/
def IsScore (source : Option ScoreSource) (x : Float) : Prop :=
  x = noScore ∨ ∃ client, source = some client ∧ client.score = some x

theorem isScore_scoreOf (source : Option ScoreSource) (answered : Bool) :
    IsScore source (scoreOf source answered) := by
  rw [scoreOf]
  split
  · cases hscore : source.bind ScoreSource.score with
    | none => exact .inl rfl
    | some x => exact .inr (Option.bind_eq_some_iff.mp hscore)
  · exact .inl rfl

/-! ### Stages -/

/-- What happens in the course of a decision. -/
inductive Happening where
  | giveUp
  /-- The call that resolves the groupings ends. -/
  | resolved (reply : Reply)
  /-- The call for the candidates of a component ends. -/
  | fetched (c : Component) (reply : Reply)
  | omniscored (answered : Bool)
  | merchantScored (answered : Bool)
  /-- The decision goes on: to the evaluation, or by one component. -/
  | goOn

/-- How far a decision is. -/
inductive Stage where
  | resolving
  | fetching (scope : Groupings) (found : Component → Option (List Candidate))
      (failure : Option ServiceError) (omniscore merchantScore : Option Float)
  | evaluating (omniscore merchantScore : Float) (results : List ComponentResult)
      (left : List (ConsoleEntry × List Candidate))
  | ended (outcome : Except ServiceError Screening)

/-- A decision under way. -/
structure Course where
  stage : Stage
  /-- Whether the caller has given up. -/
  up : Bool := false

section Course

variable (e : Engine) (s : Stores) (charge : Charge)

/-- A decision before anything has happened. -/
def Course.start : Course :=
  match (e.console charge).check with
  | .error err => { stage := .ended (.error err) }
  | .ok _ => { stage := .resolving }

/-- Whether all candidates are there. -/
def allFound (found : Component → Option (List Candidate)) : Bool :=
  (e.console charge).components.all fun c => (found c).isSome

/-- Whether the candidates of a component may come next: they are not there yet, and when they are
fetched in turn, those of all components before are. -/
def mayCome (found : Component → Option (List Candidate)) (c : Component) : Bool :=
  (found c).isNone && (e.console charge).components.contains c
    && (e.settings.concurrentFetch
      || ((e.console charge).components.takeWhile (· != c)).all fun d => (found d).isSome)

/-- The candidates of a component when the call for them ends, if there is one. -/
def comeTo (scope : Groupings) (up : Bool) (c : Component) (reply : Reply) :
    Except ServiceError (List Candidate) :=
  match s.fetch? scope (searchKeys charge.attributes) c with
  | none => .ok []
  | some found => reply.settle up c.word found

/-! What happens in a stage in which it cannot happen changes nothing. -/

/-- The groupings are there, or not. -/
def Stage.resolve (up : Bool) (reply : Reply) : Stage → Stage
  | .resolving =>
    match reply.settle up "family resolution" (s.families.resolve charge.companyId) with
    | .error err => .ended (.error err)
    | .ok membership =>
      .fetching (.ofCompany charge.companyId membership) (fun _ => none) none none none
  | stage => stage

/-- The candidates of a component are there, or not. Fetched in turn, a failure ends the decision;
otherwise the scores are waited for. -/
def Stage.fetch (up : Bool) (c : Component) (reply : Reply) : Stage → Stage
  | .fetching scope found none omniscore merchantScore =>
    if mayCome e charge found c then
      match comeTo s charge scope up c reply with
      | .ok candidates =>
        .fetching scope (Function.update found c (some candidates)) none omniscore merchantScore
      | .error err =>
        if e.settings.concurrentFetch then
          .fetching scope found (some err) omniscore merchantScore
        else .ended (.error err)
    else .fetching scope found none omniscore merchantScore
  | stage => stage

/-- The omniscore is there, or what stands for it. -/
def Stage.takeOmniscore (answered : Bool) : Stage → Stage
  | .fetching scope found failure none merchantScore =>
    if e.settings.concurrentFetch || allFound e charge found then
      .fetching scope found failure (some (scoreOf e.omniscore answered)) merchantScore
    else .fetching scope found failure none merchantScore
  | stage => stage

/-- The merchant score is there, or what stands for it. -/
def Stage.takeMerchantScore (answered : Bool) : Stage → Stage
  | .fetching scope found failure omniscore none =>
    if e.settings.concurrentFetch || allFound e charge found then
      .fetching scope found failure omniscore (some (scoreOf e.merchantScore answered))
    else .fetching scope found failure omniscore none
  | stage => stage

/-- The decision goes on, if everything it needs is there. -/
def Stage.goOn (up : Bool) : Stage → Stage
  | .fetching scope found failure (some omniscore) (some merchantScore) =>
    match failure with
    | some err => .ended (.error err)
    | none =>
      if allFound e charge found then
        .evaluating omniscore merchantScore []
          ((e.console charge).entries.map fun entry => (entry, (found entry.component).getD []))
      else .fetching scope found none (some omniscore) (some merchantScore)
  | .evaluating omniscore merchantScore results [] =>
    .ended (.ok ⟨charge.id, .ofResults results, omniscore, merchantScore⟩)
  | .evaluating omniscore merchantScore results ((entry, candidates) :: left) =>
    if up then .ended (.error .cancelled)
    else
      let result := entry.evaluate candidates (charge.scored omniscore merchantScore)
      .evaluating omniscore merchantScore (results ++ [result]) left
  | stage => stage

/-- A decision after a happening. -/
def Course.step (d : Course) : Happening → Course
  | .giveUp => { d with up := true }
  | .resolved reply => { d with stage := d.stage.resolve s charge d.up reply }
  | .fetched c reply => { d with stage := d.stage.fetch e s charge d.up c reply }
  | .omniscored answered => { d with stage := d.stage.takeOmniscore e charge answered }
  | .merchantScored answered => { d with stage := d.stage.takeMerchantScore e charge answered }
  | .goOn => { d with stage := d.stage.goOn e charge d.up }

/-- A decision after a row of happenings. -/
def Course.run (d : Course) (happenings : List Happening) : Course :=
  happenings.foldl (Course.step e s charge) d

end Course

/-! ### What holds of every stage -/

/-- What holds of every stage: nothing but candidates and scores of the charge has come, and the
results are those of the components in front. -/
inductive Sound (e : Engine) (s : Stores) (charge : Charge) : Stage → Prop
  | refused (err : ServiceError) : Sound e s charge (.ended (.error err))
  | resolving (check : (e.console charge).check = .ok ()) : Sound e s charge .resolving
  | fetching {found : Component → Option (List Candidate)} {failure : Option ServiceError}
      {omniscore merchantScore : Option Float} (check : (e.console charge).check = .ok ())
      (candidates : ∀ c cs, found c = some cs →
        cs = s.candidates (s.groupings charge) (searchKeys charge.attributes) c)
      (omni : ∀ x ∈ omniscore, IsScore e.omniscore x)
      (merchant : ∀ x ∈ merchantScore, IsScore e.merchantScore x) :
      Sound e s charge (.fetching (s.groupings charge) found failure omniscore merchantScore)
  | evaluating {x y : Float} {results : List ComponentResult}
      {left : List (ConsoleEntry × List Candidate)} (check : (e.console charge).check = .ok ())
      (omni : IsScore e.omniscore x) (merchant : IsScore e.merchantScore y)
      (verdict : .ofResults (results ++ left.map fun p => p.1.evaluate p.2 (charge.scored x y))
        = (e.screening s charge x y).verdict) :
      Sound e s charge (.evaluating x y results left)
  | decided {r : Screening} (check : (e.console charge).check = .ok ())
      (omni : IsScore e.omniscore r.omniscore) (merchant : IsScore e.merchantScore r.merchantScore)
      (screening : r = e.screening s charge r.omniscore r.merchantScore) :
      Sound e s charge (.ended (.ok r))

section Sound

variable {e : Engine} {s : Stores} {charge : Charge} {stage : Stage} {up : Bool}

theorem settle_eq_ok {α : Type} {operation : String} {answer a : α} {reply : Reply}
    (h : reply.settle up operation answer = .ok a) : a = answer := by
  unfold Reply.settle at h
  split at h
  · cases h
  · split at h
    · exact (Except.ok.inj h).symm
    · cases h
    · cases h

theorem comeTo_eq_ok {scope : Groupings} {c : Component} {reply : Reply} {cs : List Candidate}
    (h : comeTo s charge scope up c reply = .ok cs) :
    cs = s.candidates scope (searchKeys charge.attributes) c := by
  rw [comeTo] at h
  rw [Stores.candidates]
  split at h
  · next hnone =>
    rw [hnone]
    exact (Except.ok.inj h).symm
  · next found hsome =>
    rw [hsome]
    exact settle_eq_ok h

theorem Sound.resolve (h : Sound e s charge stage) (reply : Reply) :
    Sound e s charge (stage.resolve s charge up reply) := by
  cases stage with
  | resolving =>
    cases h with
    | resolving check =>
      rw [Stage.resolve]
      split
      · exact .refused _
      · next membership hsettle =>
        rw [settle_eq_ok hsettle]
        exact .fetching check nofun nofun nofun
  | fetching | evaluating | ended => exact h

theorem Sound.fetch (h : Sound e s charge stage) (c : Component) (reply : Reply) :
    Sound e s charge (stage.fetch e s charge up c reply) := by
  cases stage with
  | fetching scope found failure omniscore merchantScore =>
    cases failure with
    | some err => exact h
    | none =>
      rw [Stage.fetch]
      split
      · cases h with
        | fetching check candidates omni merchant =>
          split
          · next cs hcome =>
            refine .fetching check ?_ omni merchant
            intro d ds hd
            by_cases hdc : d = c
            · rw [hdc, Function.update_self] at hd
              rw [hdc, ← Option.some.inj hd]
              exact comeTo_eq_ok hcome
            · rw [Function.update_of_ne hdc] at hd
              exact candidates d ds hd
          · split
            · exact .fetching check candidates omni merchant
            · exact .refused _
      · exact h
  | resolving | evaluating | ended => exact h

theorem Sound.takeOmniscore (h : Sound e s charge stage) (answered : Bool) :
    Sound e s charge (stage.takeOmniscore e charge answered) := by
  cases stage with
  | fetching scope found failure omniscore merchantScore =>
    cases omniscore with
    | some x => exact h
    | none =>
      rw [Stage.takeOmniscore]
      split
      · cases h with
        | fetching check candidates omni merchant =>
          refine .fetching check candidates ?_ merchant
          intro x hx
          rw [← Option.mem_some.mp hx]
          exact isScore_scoreOf e.omniscore answered
      · exact h
  | resolving | evaluating | ended => exact h

theorem Sound.takeMerchantScore (h : Sound e s charge stage) (answered : Bool) :
    Sound e s charge (stage.takeMerchantScore e charge answered) := by
  cases stage with
  | fetching scope found failure omniscore merchantScore =>
    cases merchantScore with
    | some x => exact h
    | none =>
      rw [Stage.takeMerchantScore]
      split
      · cases h with
        | fetching check candidates omni merchant =>
          refine .fetching check candidates omni ?_
          intro x hx
          rw [← Option.mem_some.mp hx]
          exact isScore_scoreOf e.merchantScore answered
      · exact h
  | resolving | evaluating | ended => exact h

/-- The evaluation starts with the candidates of every component. -/
theorem Sound.evaluate {scope : Groupings} {found : Component → Option (List Candidate)}
    {x y : Float} (h : Sound e s charge (.fetching scope found none (some x) (some y)))
    (hall : allFound e charge found = true) :
    Sound e s charge (.evaluating x y []
      ((e.console charge).entries.map fun entry => (entry, (found entry.component).getD []))) := by
  cases h with
  | fetching check candidates omni merchant =>
    refine .evaluating check (omni x rfl) (merchant y rfl) ?_
    rw [Engine.screening_verdict, List.nil_append, List.map_map]
    refine congrArg Verdict.ofResults (List.map_congr_left fun entry hentry => ?_)
    obtain ⟨cs, hcs⟩ := Option.isSome_iff_exists.mp
      (List.all_eq_true.mp hall entry.component (List.mem_map_of_mem hentry))
    simp only [Function.comp_apply, hcs, Option.getD_some, candidates entry.component cs hcs]

theorem Sound.goOn (h : Sound e s charge stage) : Sound e s charge (stage.goOn e charge up) := by
  cases stage with
  | fetching scope found failure omniscore merchantScore =>
    cases omniscore with
    | none => exact h
    | some x =>
      cases merchantScore with
      | none => exact h
      | some y =>
        cases failure with
        | some err => exact .refused err
        | none =>
          simp only [Stage.goOn]
          split
          · next hall => exact h.evaluate hall
          · exact h
  | evaluating x y results left =>
    cases h with
    | evaluating check omni merchant verdict =>
      cases left with
      | nil =>
        refine .decided check omni merchant ?_
        rw [List.map_nil, List.append_nil] at verdict
        rw [verdict]
        rfl
      | cons p left =>
        simp only [Stage.goOn]
        split
        · exact .refused _
        · refine .evaluating check omni merchant ?_
          rw [List.append_assoc]
          exact verdict
  | resolving | ended => exact h

theorem Sound.step {d : Course} (h : Sound e s charge d.stage) (happening : Happening) :
    Sound e s charge (d.step e s charge happening).stage := by
  cases happening with
  | giveUp => exact h
  | resolved reply => exact h.resolve reply
  | fetched c reply => exact h.fetch c reply
  | omniscored answered => exact h.takeOmniscore answered
  | merchantScored answered => exact h.takeMerchantScore answered
  | goOn => exact h.goOn

theorem sound_start : Sound e s charge (Course.start e charge).stage := by
  rw [Course.start]
  cases hcheck : (e.console charge).check with
  | error err => exact .refused err
  | ok _ => exact .resolving hcheck

theorem Sound.run {d : Course} (h : Sound e s charge d.stage) (happenings : List Happening) :
    Sound e s charge (d.run e s charge happenings).stage := by
  induction happenings generalizing d with
  | nil => exact h
  | cons happening happenings ih => exact ih (h.step happening)

/-- Whatever happens in the course of a decision, its stage is sound. -/
theorem sound_run (e : Engine) (s : Stores) (charge : Charge) (happenings : List Happening) :
    Sound e s charge ((Course.start e charge).run e s charge happenings).stage :=
  sound_start.run happenings

end Sound

end ChargeScreening
