import ChargeScreening.Proofs.Engine.Events
import Mathlib.Data.List.Induction
import Mathlib.Data.List.Nodup

/-!
# Decisions in time

The engine lets time settle what happens first. Whatever time settles is one of the rows of
happenings that can happen anyway, so what holds of all of them holds of the engine.

## Main definitions

* `candidatesOf` — the candidates that are there when those of some components have come
* `fetching`, `gathering` — what happens up to the candidates, and up to the evaluation
* `failing` — what happens when a call fails

## Main results

* `run_fetching`, `run_gathering`, `run_evaluating` — a decision in which all calls are answered
* `run_failure` — a decision in which one is not
* `exists_run_eq_decide` — every decision of the engine is the end of some row of happenings
-/

namespace ChargeScreening

variable {e : Engine} {s : Stores} {w : Engine.Circumstances} {charge : Charge}

/-! ### Rows of happenings -/

theorem Course.run_append (d : Course) (first second : List Happening) :
    d.run e s charge (first ++ second) = (d.run e s charge first).run e s charge second :=
  List.foldl_append

theorem Course.run_concat (d : Course) (happenings : List Happening) (happening : Happening) :
    d.run e s charge (happenings ++ [happening])
      = (d.run e s charge happenings).step e s charge happening :=
  Course.run_append d happenings [happening]

/-- The caller gives up, or does not. -/
def giveUpIf (up : Bool) : List Happening :=
  if up then [.giveUp] else []

theorem run_giveUpIf (stage : Stage) (up : Bool) :
    Course.run e s charge ⟨stage, false⟩ (giveUpIf up) = ⟨stage, up⟩ := by
  cases up <;> rfl

/-! ### Calls that end in time -/

/-- A call that ends in time ends in some way. -/
theorem exists_settle_eq_await {α : Type} (cancelAt : Option Nat) (limitMs : Nat)
    (operation : String) (start : Nat) (f : Fault) (answer : α) :
    ∃ up reply, Reply.settle up operation answer reply
      = (await cancelAt limitMs operation start f answer).value := by
  rw [await]
  split
  · exact ⟨true, .answered, rfl⟩
  · split
    · cases hf : f.failure with
      | none => exact ⟨false, .answered, by simp [Reply.settle, Fault.reply, hf]⟩
      | some reason => exact ⟨false, .failed reason, by simp [Reply.settle, Fault.reply, hf]⟩
    · exact ⟨false, .timedOut, rfl⟩

theorem exists_comeTo_eq_fetch (e : Engine) (s : Stores) (w : Engine.Circumstances)
    (charge : Charge) (scope : Groupings) (start : Nat) (c : Component) :
    ∃ up reply, comeTo s charge scope up c reply
      = (e.fetch s w scope (searchKeys charge.attributes) start c).value := by
  simp only [comeTo, Engine.fetch]
  cases s.fetch? scope (searchKeys charge.attributes) c with
  | none => exact ⟨false, .answered, rfl⟩
  | some found => exact exists_settle_eq_await ..

theorem comeTo_answered (scope : Groupings) (c : Component) :
    comeTo s charge scope false c .answered
      = .ok (s.candidates scope (searchKeys charge.attributes) c) := by
  rw [comeTo, Stores.candidates]
  cases s.fetch? scope (searchKeys charge.attributes) c with
  | none => rfl
  | some found => rfl

theorem exists_scoreOf_eq_lookUp (limitMs : Nat) (source : Option ScoreSource) :
    ∃ answered, scoreOf source answered = (ScoreSource.lookUp limitMs source).1 := by
  cases source with
  | none => exact ⟨false, rfl⟩
  | some client =>
    rw [ScoreSource.lookUp]
    split
    · exact ⟨true, rfl⟩
    · exact ⟨false, rfl⟩

/-! ### Candidates that have come -/

/-- The candidates of these components and no others. -/
def candidatesOf (s : Stores) (charge : Charge) (components : List Component) (c : Component) :
    Option (List Candidate) :=
  if c ∈ components then
    some (s.candidates (s.groupings charge) (searchKeys charge.attributes) c)
  else none

theorem update_candidatesOf (components : List Component) (c : Component) :
    Function.update (candidatesOf s charge components) c
        (some (s.candidates (s.groupings charge) (searchKeys charge.attributes) c))
      = candidatesOf s charge (components ++ [c]) := by
  funext d
  rw [Function.update_apply, candidatesOf, candidatesOf]
  by_cases hd : d = c
  · simp [hd]
  · simp [hd]

theorem mayCome_next {passed left : List Component} {c : Component}
    (hcomponents : (e.console charge).components = passed ++ c :: left)
    (hnodup : (e.console charge).components.Nodup) :
    mayCome e charge (candidatesOf s charge passed) c = true := by
  rw [hcomponents] at hnodup
  have hc : c ∉ passed := fun hmem =>
    List.disjoint_of_nodup_append hnodup hmem (List.mem_cons_self ..)
  have hbefore : (passed ++ c :: left).takeWhile (· != c) = passed := by
    have hpassed : ∀ d ∈ passed, (d != c) = true := by
      intro d hd
      rw [bne_iff_ne]
      rintro rfl
      exact hc hd
    rw [List.takeWhile_append_of_pos hpassed, List.takeWhile_cons_of_neg (by simp),
      List.append_nil]
  rw [mayCome, hcomponents, hbefore]
  simp only [Bool.and_eq_true, Bool.or_eq_true, List.all_eq_true]
  refine ⟨⟨?_, ?_⟩, .inr ?_⟩
  · simp [candidatesOf, hc]
  · simp
  · intro d hd
    simp [candidatesOf, hd]

theorem allFound_candidatesOf :
    allFound e charge (candidatesOf s charge (e.console charge).components) = true := by
  rw [allFound, List.all_eq_true]
  intro c hc
  simp [candidatesOf, hc]

/-! ### When all calls are answered -/

theorem start_eq (hcheck : (e.console charge).check = .ok ()) :
    Course.start e charge = ⟨.resolving, false⟩ := by
  rw [Course.start, hcheck]

/-- The happenings up to the candidates of these components. -/
def fetching (components : List Component) : List Happening :=
  .resolved .answered :: components.map fun c => .fetched c .answered

theorem run_fetching {passed left : List Component}
    (hcheck : (e.console charge).check = .ok ())
    (hcomponents : (e.console charge).components = passed ++ left) :
    (Course.start e charge).run e s charge (fetching passed)
      = ⟨.fetching (s.groupings charge) (candidatesOf s charge passed) none none none, false⟩ := by
  induction passed using List.reverseRecOn generalizing left with
  | nil =>
    have hnone : candidatesOf s charge [] = fun _ => none :=
      funext fun c => if_neg List.not_mem_nil
    rw [start_eq hcheck, hnone]
    rfl
  | append_singleton passed c ih =>
    rw [List.append_assoc, List.singleton_append] at hcomponents
    have hfetching : fetching (passed ++ [c]) = fetching passed ++ [.fetched c .answered] := by
      simp [fetching]
    rw [hfetching, Course.run_concat, ih hcomponents, ← update_candidatesOf]
    simp only [Course.step, Stage.fetch, mayCome_next hcomponents (check_eq_ok_iff.mp hcheck),
      comeTo_answered, if_true]

/-- The happenings up to the evaluation. -/
def gathering (components : List Component) (omniscored merchantScored : Bool) : List Happening :=
  fetching components ++ [.omniscored omniscored, .merchantScored merchantScored, .goOn]

theorem run_gathering (hcheck : (e.console charge).check = .ok ()) (a b : Bool) :
    ∃ left, left.length = (e.console charge).entries.length
      ∧ (Course.start e charge).run e s charge (gathering (e.console charge).components a b)
        = ⟨.evaluating (scoreOf e.omniscore a) (scoreOf e.merchantScore b) [] left, false⟩ := by
  refine ⟨(e.console charge).entries.map fun entry => (entry,
    (candidatesOf s charge (e.console charge).components entry.component).getD []),
    List.length_map .., ?_⟩
  rw [gathering, Course.run_append, run_fetching hcheck (List.append_nil _).symm]
  simp [Course.run, Course.step, Stage.takeOmniscore, Stage.takeMerchantScore, Stage.goOn,
    allFound_candidatesOf]

theorem run_evaluating (e : Engine) (s : Stores) (charge : Charge) (x y : Float)
    (results : List ComponentResult) (left : List (ConsoleEntry × List Candidate)) :
    ∃ verdict, Course.run e s charge ⟨.evaluating x y results left, false⟩
        (List.replicate (left.length + 1) .goOn)
      = ⟨.ended (.ok ⟨charge.id, verdict, x, y⟩), false⟩ := by
  induction left generalizing results with
  | nil => exact ⟨_, rfl⟩
  | cons p left ih => exact ih _

/-! ### When a call fails -/

/-- The call for the candidates of a component ends, and the decision goes on to its end. -/
def failing (c : Component) (reply : Reply) : List Happening :=
  [.fetched c reply, .omniscored true, .merchantScored true, .goOn]

/-- Fetched in turn, a failure ends the decision at once; otherwise the scores come first. -/
theorem run_failure {scope : Groupings} {found : Component → Option (List Candidate)}
    {c : Component} {up : Bool} {reply : Reply} {err : ServiceError}
    (hmay : mayCome e charge found c = true)
    (hfailed : comeTo s charge scope up c reply = .error err) :
    (Course.run e s charge ⟨.fetching scope found none none none, up⟩ (failing c reply)).stage
      = .ended (.error err) := by
  cases hconcurrent : e.settings.concurrentFetch with
  | false =>
    simp [failing, Course.run, Course.step, Stage.fetch, hmay, hfailed, hconcurrent,
      Stage.takeOmniscore, Stage.takeMerchantScore, Stage.goOn]
  | true =>
    simp [failing, Course.run, Course.step, Stage.fetch, hmay, hfailed, hconcurrent,
      Stage.takeOmniscore, Stage.takeMerchantScore, Stage.goOn]

/-! ### Decisions -/

/-- A decision that comes about in time is the end of some row of happenings. -/
theorem exists_run_of_decide_eq_ok {r : Screening} (h : e.decide s w charge = .ok r) :
    ∃ happenings, ((Course.start e charge).run e s charge happenings).stage = .ended (.ok r) := by
  obtain ⟨hcheck, hr⟩ := Engine.decide_eq_ok h
  obtain ⟨a, ha : scoreOf e.omniscore a = e.lookUpOmniscore.1⟩ :=
    exists_scoreOf_eq_lookUp e.settings.scoreTimeoutMs e.omniscore
  obtain ⟨b, hb : scoreOf e.merchantScore b = e.lookUpMerchantScore.1⟩ :=
    exists_scoreOf_eq_lookUp e.settings.scoreTimeoutMs e.merchantScore
  obtain ⟨left, -, hgathered⟩ := run_gathering (s := s) hcheck a b
  obtain ⟨verdict, hevaluated⟩ := run_evaluating e s charge
    (scoreOf e.omniscore a) (scoreOf e.merchantScore b) [] left
  refine ⟨gathering (e.console charge).components a b
    ++ List.replicate (left.length + 1) .goOn, ?_⟩
  have hsound := sound_run e s charge
    (gathering (e.console charge).components a b ++ List.replicate (left.length + 1) .goOn)
  rw [Course.run_append, hgathered, hevaluated] at hsound ⊢
  cases hsound with
  | decided _ _ _ hscreening =>
    rw [hr, ← ha, ← hb]
    exact congrArg (Stage.ended ∘ Except.ok) hscreening

/-- A decision that fails in time is the end of some row of happenings. -/
theorem exists_run_of_decide_eq_error {err : ServiceError} (h : e.decide s w charge = .error err) :
    ∃ happenings, ((Course.start e charge).run e s charge happenings).stage
      = .ended (.error err) := by
  rcases Engine.decide_eq_error h with hcheck | ⟨hcheck, hresolved | hfetched | ⟨rfl, hentries⟩⟩
  · refine ⟨[], ?_⟩
    rw [Course.start, hcheck]
    rfl
  · obtain ⟨up, reply, hreply⟩ := exists_settle_eq_await w.cancelAt e.settings.fetchTimeoutMs
      "family resolution" 0 w.families (s.families.resolve charge.companyId)
    refine ⟨giveUpIf up ++ [.resolved reply], ?_⟩
    rw [Course.run_append, start_eq hcheck, run_giveUpIf]
    change Stage.resolve s charge up reply .resolving = _
    simp only [Stage.resolve, hreply]
    rw [← Engine.resolve, hresolved]
  · obtain ⟨passed, c, left, start, hcomponents, hfailed⟩ := hfetched
    obtain ⟨up, reply, hreply⟩ := exists_comeTo_eq_fetch e s w charge (s.groupings charge) start c
    refine ⟨fetching passed ++ (giveUpIf up ++ failing c reply), ?_⟩
    rw [Course.run_append, run_fetching hcheck hcomponents, Course.run_append, run_giveUpIf]
    refine run_failure (mayCome_next hcomponents (check_eq_ok_iff.mp hcheck)) ?_
    rw [hreply, hfailed]
  · obtain ⟨left, hleft, hgathered⟩ := run_gathering (s := s) hcheck true true
    refine ⟨gathering (e.console charge).components true true ++ [.giveUp, .goOn], ?_⟩
    rw [Course.run_append, hgathered]
    cases left with
    | nil => exact absurd (List.eq_nil_of_length_eq_zero hleft.symm) hentries
    | cons p left => rfl

/-- Every decision in time is the end of some row of happenings. -/
theorem exists_run_eq_decide (e : Engine) (s : Stores) (w : Engine.Circumstances)
    (charge : Charge) :
    ∃ happenings, ((Course.start e charge).run e s charge happenings).stage
      = .ended (e.decide s w charge) := by
  cases h : e.decide s w charge with
  | ok r => exact exists_run_of_decide_eq_ok h
  | error err => exact exists_run_of_decide_eq_error h

end ChargeScreening
