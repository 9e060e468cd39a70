import ChargeScreening.Proofs.Engine.Fetching

/-!
# What a decision comes to

Faults, delays and the moment at which the caller gives up settle whether a charge is decided, and
the stores and the scores settle how. The two are taken apart here: the answer to a charge is
written down without any reference to time, and every decision that comes about is that answer.

## Main definitions

* `Engine.screening` — the answer to a charge with given scores
* `Undisturbed` — circumstances in which nothing goes wrong

## Main results

* `check_eq_ok_iff` — which consoles are accepted
* `decide_eq_ok` — a decision that comes about is the answer to the charge
* `decide_eq_error` — why a decision does not come about
* `exists_decide_iff` — when a decision comes about if nobody gives up
-/

namespace ChargeScreening

/-! ### The answer to a charge -/

/-- The groupings of a charge. -/
def Stores.groupings (s : Stores) (charge : Charge) : Groupings :=
  .ofCompany charge.companyId (s.families.resolve charge.companyId)

namespace Engine

/-- The console that a charge is screened by. -/
def console (e : Engine) (charge : Charge) : Console :=
  charge.console.getD e.settings.defaultConsole

/-- The answer to a charge with given scores, all calls being answered. -/
def screening (e : Engine) (s : Stores) (charge : Charge) (omniscore merchantScore : Float) :
    Screening where
  chargeId := charge.id
  verdict := (e.console charge).verdict
    ((e.console charge).components.map
      (s.candidates (s.groupings charge) (searchKeys charge.attributes)))
    (charge.scored omniscore merchantScore)
  omniscore := omniscore
  merchantScore := merchantScore

/-- The answer rests on each component being evaluated on its candidates. -/
theorem screening_verdict (e : Engine) (s : Stores) (charge : Charge) (x y : Float) :
    (e.screening s charge x y).verdict
      = .ofResults ((e.console charge).entries.map fun entry => entry.evaluate
          (s.candidates (s.groupings charge) (searchKeys charge.attributes) entry.component)
          (charge.scored x y)) := by
  rw [screening, Console.verdict, Console.components, List.map_map, List.zipWith_map_right,
    List.zipWith_self]
  rfl

end Engine

/-! ### Consoles -/

theorem firstRepeat?_eq_none_iff {α : Type} [DecidableEq α] {seen xs : List α} :
    firstRepeat? seen xs = none ↔ xs.Nodup ∧ ∀ x ∈ xs, x ∉ seen := by
  induction xs generalizing seen with
  | nil => simp [firstRepeat?]
  | cons x xs ih =>
    rw [firstRepeat?, List.nodup_cons, List.forall_mem_cons]
    split
    · next hseen =>
      constructor
      · intro h
        cases h
      · rintro ⟨-, hx, -⟩
        exact absurd hseen hx
    · next hseen =>
      rw [ih]
      constructor
      · rintro ⟨hnodup, hxs⟩
        refine ⟨⟨fun hx => hxs x hx (List.mem_cons_self ..), hnodup⟩, hseen, fun y hy hyseen => ?_⟩
        exact hxs y hy (List.mem_cons_of_mem _ hyseen)
      · rintro ⟨⟨hx, hnodup⟩, -, hxs⟩
        refine ⟨hnodup, fun y hy hyseen => ?_⟩
        rcases List.mem_cons.mp hyseen with rfl | hyseen
        · exact hx hy
        · exact hxs y hy hyseen

/-- A console is accepted just if it names no component twice. -/
theorem check_eq_ok_iff {c : Console} : c.check = .ok () ↔ c.components.Nodup := by
  have hnone : c.repeated? = none ↔ c.components.Nodup := by
    rw [Console.repeated?, firstRepeat?_eq_none_iff]
    exact and_iff_left fun _ _ => List.not_mem_nil
  rw [← hnone, Console.check]
  cases c.repeated? with
  | none => exact ⟨fun _ => rfl, fun _ => rfl⟩
  | some component =>
    constructor
    · intro h
      cases h
    · intro h
      cases h

/-! ### Steps that may fail -/

theorem bind_eq_ok_iff {ε α β : Type} {x : Except ε α} {f : α → Except ε β} {b : β} :
    x >>= f = .ok b ↔ ∃ a, x = .ok a ∧ f a = .ok b := by
  cases x with
  | error err =>
    constructor
    · intro h
      cases h
    · rintro ⟨a, ha, -⟩
      cases ha
  | ok a =>
    constructor
    · intro h
      exact ⟨a, rfl, h⟩
    · rintro ⟨a', ha, h⟩
      cases ha
      exact h

theorem bind_eq_error_iff {ε α β : Type} {x : Except ε α} {f : α → Except ε β} {err : ε} :
    x >>= f = .error err ↔ x = .error err ∨ ∃ a, x = .ok a ∧ f a = .error err := by
  cases x with
  | error err' =>
    constructor
    · intro h
      exact .inl (congrArg Except.error (Except.error.inj h))
    · rintro (h | ⟨a, ha, -⟩)
      · exact congrArg Except.error (Except.error.inj h)
      · cases ha
  | ok a =>
    constructor
    · intro h
      exact .inr ⟨a, rfl, h⟩
    · rintro (h | ⟨a', ha, h⟩)
      · cases h
      · cases ha
        exact h

/-! ### Decisions -/

/-- Circumstances in which every call is answered in time and nobody gives up. -/
structure Undisturbed (w : Engine.Circumstances) (limitMs : Nat) : Prop where
  cancel : w.cancelAt = none
  families : w.families.Passes limitMs
  fetch : ∀ c, (w.fetch c).Passes limitMs

theorem undisturbed_default (limitMs : Nat) : Undisturbed {} limitMs :=
  ⟨rfl, ⟨rfl, Nat.zero_le _⟩, fun _ => ⟨rfl, Nat.zero_le _⟩⟩

namespace Engine

variable {e : Engine} {s : Stores} {w : Circumstances} {charge : Charge} {r : Screening}

/-- The call that resolves the groupings of a charge. -/
def resolve (e : Engine) (s : Stores) (w : Circumstances) (charge : Charge) :
    Timed (Except ServiceError FamilyMembership) :=
  await w.cancelAt e.settings.fetchTimeoutMs "family resolution" 0 w.families
    (s.families.resolve charge.companyId)

/-- The omniscore and the time it takes. -/
def lookUpOmniscore (e : Engine) : Float × Nat :=
  ScoreSource.lookUp e.settings.scoreTimeoutMs e.omniscore

/-- The merchant score and the time it takes. -/
def lookUpMerchantScore (e : Engine) : Float × Nat :=
  ScoreSource.lookUp e.settings.scoreTimeoutMs e.merchantScore

/-- When candidates and scores are there. -/
def readyTime (e : Engine) (resolved fetched : Nat) : Nat :=
  let scoresTime := max e.lookUpOmniscore.2 e.lookUpMerchantScore.2
  if e.settings.concurrentFetch then max fetched (resolved + scoresTime) else fetched + scoresTime

/-- A decision, stage by stage. -/
theorem decide_eq (e : Engine) (s : Stores) (w : Circumstances) (charge : Charge) :
    e.decide s w charge = (do
      (e.console charge).check
      let membership ← (e.resolve s w charge).value
      let fetched := e.fetchAll s w (.ofCompany charge.companyId membership)
        (searchKeys charge.attributes) (e.resolve s w charge).time (e.console charge).components
      let candidates ← fetched.value
      if !(e.console charge).entries.isEmpty
          && givenUp w.cancelAt (e.readyTime (e.resolve s w charge).time fetched.time) then
        .error .cancelled
      else
        .ok ⟨charge.id, (e.console charge).verdict candidates
          (charge.scored e.lookUpOmniscore.1 e.lookUpMerchantScore.1), e.lookUpOmniscore.1,
          e.lookUpMerchantScore.1⟩) :=
  rfl

/-- A decision that comes about is the answer to the charge. -/
theorem decide_eq_ok (h : e.decide s w charge = .ok r) :
    (e.console charge).check = .ok ()
      ∧ r = e.screening s charge e.lookUpOmniscore.1 e.lookUpMerchantScore.1 := by
  rw [decide_eq] at h
  obtain ⟨_, hcheck, h⟩ := bind_eq_ok_iff.mp h
  obtain ⟨membership, hresolved, h⟩ := bind_eq_ok_iff.mp h
  obtain ⟨candidates, hfetched, h⟩ := bind_eq_ok_iff.mp h
  obtain ⟨-, -, -, hmembership⟩ := await_ok_iff.mp hresolved
  refine ⟨hcheck, ?_⟩
  split at h
  · cases h
  · rw [← Except.ok.inj h, eq_map_of_fetchAll hfetched, ← hmembership]
    rfl

/-- A decision fails because the console is refused, because a call fails, or because the caller
gives up before the components are evaluated. -/
theorem decide_eq_error {err : ServiceError} (h : e.decide s w charge = .error err) :
    (e.console charge).check = .error err ∨ (e.console charge).check = .ok ()
      ∧ ((e.resolve s w charge).value = .error err
        ∨ (∃ passed c left start, (e.console charge).components = passed ++ c :: left
          ∧ (e.fetch s w (s.groupings charge) (searchKeys charge.attributes) start c).value
            = .error err)
        ∨ err = .cancelled ∧ (e.console charge).entries ≠ []) := by
  rw [decide_eq] at h
  rcases bind_eq_error_iff.mp h with hcheck | ⟨_, hcheck, h⟩
  · exact .inl hcheck
  refine .inr ⟨hcheck, ?_⟩
  rcases bind_eq_error_iff.mp h with hresolved | ⟨membership, hresolved, h⟩
  · exact .inl hresolved
  obtain ⟨-, -, -, hmembership⟩ := await_ok_iff.mp hresolved
  rw [← hmembership] at h
  rcases bind_eq_error_iff.mp h with hfetched | ⟨candidates, hfetched, h⟩
  · exact .inr (.inl (exists_of_fetchAll_eq_error hfetched))
  · split at h
    · next hup =>
      refine .inr (.inr ⟨(Except.error.inj h).symm, ?_⟩)
      rw [Bool.and_eq_true, Bool.not_eq_true', List.isEmpty_eq_false_iff] at hup
      exact hup.1
    · cases h

/-- If nobody gives up, a decision comes about whenever the console is sound and every call that is
made passes. -/
theorem exists_decide_iff (hcancel : w.cancelAt = none) :
    (∃ r, e.decide s w charge = .ok r)
      ↔ (e.console charge).check = .ok () ∧ w.families.Passes e.settings.fetchTimeoutMs
        ∧ e.Fetchable s w (s.groupings charge) (searchKeys charge.attributes)
          (e.console charge).components := by
  constructor
  · rintro ⟨r, h⟩
    rw [decide_eq] at h
    obtain ⟨_, hcheck, h⟩ := bind_eq_ok_iff.mp h
    obtain ⟨membership, hresolved, h⟩ := bind_eq_ok_iff.mp h
    obtain ⟨candidates, hfetched, h⟩ := bind_eq_ok_iff.mp h
    obtain ⟨-, hlimit, hfailure, hmembership⟩ := await_ok_iff.mp hresolved
    rw [← hmembership] at hfetched
    exact ⟨hcheck, ⟨hfailure, hlimit⟩, (exists_fetchAll_iff hcancel).mp ⟨candidates, hfetched⟩⟩
  · rintro ⟨hcheck, ⟨hfailure, hlimit⟩, hfetchable⟩
    have hnever : ∀ time, givenUp w.cancelAt time = false := by
      intro time
      rw [hcancel]
      rfl
    have hresolved : (e.resolve s w charge).value = .ok (s.families.resolve charge.companyId) :=
      await_ok_iff.mpr ⟨hnever _, hlimit, hfailure, rfl⟩
    obtain ⟨candidates, hfetched⟩ : ∃ found, (e.fetchAll s w (s.groupings charge)
        (searchKeys charge.attributes) (e.resolve s w charge).time
        (e.console charge).components).value = .ok found :=
      (exists_fetchAll_iff hcancel).mpr hfetchable
    have hdecide : e.decide s w charge = .ok ⟨charge.id, (e.console charge).verdict candidates
        (charge.scored e.lookUpOmniscore.1 e.lookUpMerchantScore.1), e.lookUpOmniscore.1,
        e.lookUpMerchantScore.1⟩ := by
      rw [decide_eq, bind_eq_ok_iff]
      refine ⟨(), hcheck, bind_eq_ok_iff.mpr ⟨_, hresolved, bind_eq_ok_iff.mpr ⟨_, hfetched, ?_⟩⟩⟩
      rw [hnever, Bool.and_false]
      rfl
    exact ⟨_, hdecide⟩

theorem exists_decide_of_undisturbed (hw : Undisturbed w e.settings.fetchTimeoutMs)
    (hcheck : (e.console charge).check = .ok ()) : ∃ r, e.decide s w charge = .ok r :=
  (exists_decide_iff hw.cancel).mpr ⟨hcheck, hw.families, fun c _ _ => hw.fetch c⟩

end Engine

end ChargeScreening
