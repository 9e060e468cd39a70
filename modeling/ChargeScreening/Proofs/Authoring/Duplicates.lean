import ChargeScreening.Proofs.Authoring.Sequence
import Mathlib.Data.List.Basic

/-!
# What is called a duplicate

A rule is refused as a duplicate by the check against the rules found under its scope, and by the
store, which the rule reaches behind that check. For an author who works alone the store has nothing
to add but that an id is taken, and this is called a duplicate as well, whatever the rule kept under
the id says.

## Main definitions

* `RuleStore.Reached` — the stores that calls lead to
* `RuleStore.Holds` — whether a rule of some scope and text is kept under an id
* `RuleError.isDuplicate` — whether an error speaks of a duplicate

## Main results

* `isDuplicate_of_validate` — no check of a draft on its own speaks of duplicates
* `create_outcome_of_ok` — the outcome of a create that is carried out alone
* `create_eq_duplicateRule_iff` — duplicates are spoken of truly just if no new rule is given an id
  that is taken
-/

namespace ChargeScreening

/-! ### Stores -/

namespace RuleStore

/-- The stores that calls lead to from the one without rules. -/
inductive Reached : RuleStore → Prop
  | empty : Reached empty
  | serve {s : RuleStore} {α : Type} (h : Reached s) (c : RuleCall α) : Reached (s.serve c).2

variable {s : RuleStore} {id other : String} {scope : Scope} {text : String}

theorem Reached.noRepeats (h : s.Reached) : s.NoRepeats := by
  induction h with
  | empty => exact noRepeats_empty
  | serve h c ih => exact ih.serve c

theorem Reached.runFrom {α : Type} (h : s.Reached) (script : Script α) (w : Script.Circumstances)
    (time : Nat) : (script.runFrom w time s).store.Reached := by
  induction script generalizing time s with
  | done a => exact h
  | fail e => exact h
  | call c next ih =>
    rw [Script.runFrom_call]
    refine ih _ ?_ _
    obtain ⟨reason, -, hserve⟩ | ⟨-, hserve⟩ := w.serve_cases s c
    · rwa [hserve]
    · rw [hserve]
      exact h.serve c
  | checkpoint next ih =>
    rw [Script.runFrom]
    split
    · exact h
    · exact ih h time

/-- Carrying out a script leads from one such store to another. -/
theorem Reached.run {α : Type} (h : s.Reached) (script : Script α) (w : Script.Circumstances) :
    (script.run w s).store.Reached :=
  h.runFrom script w w.start

/-- A rule of a scope and text is kept under an id. -/
def Holds (s : RuleStore) (id : String) (scope : Scope) (text : String) : Prop :=
  ∃ t, s.get? id = some t ∧ t.scope = scope ∧ t.text = text

theorem lacks_iff_not_holds : s.Lacks scope text ↔ ∀ id, ¬ s.Holds id scope text := by
  constructor
  · rintro h id ⟨t, hget, hscope, htext⟩
    exact h t (mem_of_get? hget) hscope htext
  · intro h t ht hscope htext
    exact h t.id ⟨t, (mem_rules_iff s t).mp ht, hscope, htext⟩

theorem NoRepeats.eq_of_holds (hs : s.NoRepeats) (h : s.Holds id scope text)
    (hother : s.Holds other scope text) : id = other := by
  obtain ⟨t, hget, hscope, htext⟩ := h
  obtain ⟨u, hget', hscope', htext'⟩ := hother
  rw [← id_eq_of_get? hget, ← id_eq_of_get? hget', hs t (mem_of_get? hget) u (mem_of_get? hget')
    (hscope.trans hscope'.symm) (htext.trans htext'.symm)]

/-- The check finds what holds the scope and text. -/
theorem NoRepeats.checkUnique_of_holds (hs : s.NoRepeats) (h : s.Holds id scope text) :
    checkUnique text none (s.find (.exact scope)) = .error (.duplicateRule id) := by
  obtain ⟨t, hget, rfl, rfl⟩ := h
  rw [checkUnique_of_mem hs (mem_of_get? hget), id_eq_of_get? hget]

end RuleStore

/-! ### Checks of a draft on its own -/

/-- Whether an error speaks of a duplicate. -/
def RuleError.isDuplicate : RuleError → Bool
  | .duplicateRule _ => true
  | _ => false

section Checks

variable {r : RuleDraft} {place : Nat} {err : RuleError}

theorem isDuplicate_of_checkDecision {word : String} (h : checkDecision word = .error err) :
    err.isDuplicate = false := by
  unfold checkDecision at h
  split at h <;> cases h
  rfl

theorem isDuplicate_of_checkYellowFlag (h : checkYellowFlag r = .error err) :
    err.isDuplicate = false := by
  unfold checkYellowFlag at h
  split at h
  · split at h
    · next hdecision =>
      cases h
      exact isDuplicate_of_checkDecision hdecision
    · cases h
    · cases h
      rfl
  · cases h

theorem isDuplicate_of_checkScope (h : checkScope r = .error err) : err.isDuplicate = false := by
  unfold checkScope at h
  dsimp only at h
  split at h
  · split at h <;> cases h
    rfl
  · split at h <;> cases h
    · rfl
    · rfl

theorem isDuplicate_of_checkFormula {c : DraftClause} (h : checkFormula place c = .error err) :
    err.isDuplicate = false := by
  unfold checkFormula checkFormulaFields at h
  dsimp only at h
  repeat' split at h
  all_goals cases h
  all_goals rfl

theorem isDuplicate_of_checkFormulasFrom {clauses : List DraftClause}
    (h : checkFormulasFrom place clauses = .error err) : err.isDuplicate = false := by
  induction clauses generalizing place with
  | nil => cases h
  | cons c rest ih =>
    rw [checkFormulasFrom] at h
    split at h
    · next hformula =>
      cases h
      exact isDuplicate_of_checkFormula hformula
    · exact ih h

theorem isDuplicate_of_compileClause {c : DraftClause} (h : compileClause place c = .error err) :
    err.isDuplicate = false := by
  unfold compileClause at h
  split at h
  · next hoperand =>
    cases h
    unfold DraftClause.operand at hoperand
    dsimp only at hoperand
    repeat' split at hoperand
    all_goals cases hoperand
    all_goals rfl
  · unfold compileValue at h
    repeat' split at h
    all_goals cases h
    all_goals rfl

theorem isDuplicate_of_compileClauses {clauses : List (DraftClause × Nat)}
    (h : compileClauses clauses = .error err) : err.isDuplicate = false := by
  induction clauses with
  | nil => cases h
  | cons c rest ih =>
    rw [compileClauses] at h
    split at h
    · next hclause =>
      cases h
      exact isDuplicate_of_compileClause hclause
    · cases hrest : compileClauses rest with
      | ok compiled =>
        rw [hrest] at h
        cases h
      | error e =>
        rw [hrest] at h
        cases h
        exact ih hrest

theorem isDuplicate_of_compileText {clauses : List DraftClause}
    (h : compileText clauses = .error err) : err.isDuplicate = false := by
  unfold compileText at h
  split at h
  · next hexpression =>
    cases h
    unfold compileExpression at hexpression
    split at hexpression
    · cases hexpression
      rfl
    · cases hclauses : compileClauses (formulasFirst clauses) with
      | ok compiled =>
        rw [hclauses] at hexpression
        cases hexpression
      | error e =>
        rw [hclauses] at hexpression
        cases hexpression
        exact isDuplicate_of_compileClauses hclauses
  · split at h <;> cases h
    rfl

/-- No check of a draft on its own speaks of duplicates. -/
theorem isDuplicate_of_validate (h : r.validate = .error err) : err.isDuplicate = false := by
  unfold RuleDraft.validate at h
  split at h
  · next hdecision =>
    cases h
    exact isDuplicate_of_checkDecision hdecision
  · split at h
    · next hflag =>
      cases h
      exact isDuplicate_of_checkYellowFlag hflag
    · split at h
      · next hscope =>
        cases h
        exact isDuplicate_of_checkScope hscope
      · split at h
        · next hformulas =>
          cases h
          exact isDuplicate_of_checkFormulasFrom hformulas
        · cases htext : compileText r.clauses with
          | ok text =>
            rw [htext] at h
            cases h
          | error e =>
            rw [htext] at h
            cases h
            exact isDuplicate_of_compileText htext

end Checks

/-! ### Creating a rule -/

section Create

open Script

variable {s : RuleStore} {w : Circumstances} {r : RuleDraft} {v : ValidatedRule} {id e : String}
  {now : Timestamp}

theorem create_outcome_of_error {err : RuleError} (h : r.validate = .error err) :
    ((Authoring.create id r now).run w s).outcome = .error (.rule err) := by
  rw [Authoring.create, bind_eq, checked_bind_of_error h]
  rfl

/-- The outcome of a create whose draft is in order, when all calls are answered and nobody gives
up: what the check for duplicates says, and then what the store says. -/
theorem create_outcome_of_ok (hfault : w.fault.failure = none) (hcancel : w.cancelAt = none)
    (h : r.validate = .ok v) :
    ((Authoring.create id r now).run w s).outcome
      = match checkUnique v.text none (s.find (.exact v.scope)) with
        | .error err => .error (.rule err)
        | .ok _ =>
          match s.insert (r.build id v now) with
          | .ok _ => .ok (r.build id v now)
          | .error (.conflict existing) => .error (.rule (.duplicateRule existing))
          | .error err => .error (.store err) := by
  have hserve {α : Type} (c : RuleCall α) : w.serve s c = s.serve c := by
    rw [Circumstances.serve, hfault]
  have hup (time : Nat) : givenUp w.cancelAt time = false := by
    rw [hcancel]
    rfl
  rw [Authoring.create, bind_eq, checked_bind_of_ok h, run, runFrom_call, hserve, RuleStore.serve,
    unlessRepeated]
  cases checkUnique v.text none (s.find (.exact v.scope)) with
  | error err => rfl
  | ok _ =>
    simp only [bind_eq, pure_eq, unlessGivenUp, checkpoint_bind, done_bind, write, call_bind,
      runFrom, hup, hserve, RuleStore.serve]
    cases s.insert (r.build id v now) with
    | ok s' => rfl
    | error err => cases err <;> rfl

/-- What repeats a stored rule is a duplicate of that rule. -/
theorem create_outcome_of_holds (hs : s.NoRepeats) (hfault : w.fault.failure = none)
    (hcancel : w.cancelAt = none) (h : r.validate = .ok v) (he : s.Holds e v.scope v.text) :
    ((Authoring.create id r now).run w s).outcome = .error (.rule (.duplicateRule e)) := by
  rw [create_outcome_of_ok hfault hcancel h, hs.checkUnique_of_holds he]

/-- What repeats no rule is kept if its id is free, and a duplicate of its own id if it is not. -/
theorem create_outcome_of_lacks (hfault : w.fault.failure = none) (hcancel : w.cancelAt = none)
    (h : r.validate = .ok v) (hlacks : s.Lacks v.scope v.text) :
    ((Authoring.create id r now).run w s).outcome
      = match s.get? id with
        | none => .ok (r.build id v now)
        | some _ => .error (.rule (.duplicateRule id)) := by
  have hrival : s.rival? (r.build id v now) = none := RuleStore.rival?_of_lacks hlacks
  rw [create_outcome_of_ok hfault hcancel h, RuleStore.checkUnique_of_lacks hlacks,
    RuleStore.insert, hrival]
  simp only [RuleDraft.build]
  cases s.get? id with
  | none => rfl
  | some t => rfl

/-- As long as a new rule is given a free id, a create is refused as a duplicate of exactly the rule
that holds its scope and text. -/
theorem create_eq_duplicateRule_of_free (hs : s.NoRepeats) (hfault : w.fault.failure = none)
    (hcancel : w.cancelAt = none)
    (hfree : ∀ v, r.validate = .ok v → s.Lacks v.scope v.text → s.get? id = none) :
    ((Authoring.create id r now).run w s).outcome = .error (.rule (.duplicateRule e))
      ↔ ∃ v, r.validate = .ok v ∧ s.Holds e v.scope v.text := by
  cases hvalid : r.validate with
  | error err =>
    rw [create_outcome_of_error hvalid]
    constructor
    · rintro ⟨⟩
      cases isDuplicate_of_validate hvalid
    · rintro ⟨v, ⟨⟩, -⟩
  | ok v =>
    simp only [Except.ok.injEq, exists_eq_left']
    by_cases hlacks : s.Lacks v.scope v.text
    · rw [create_outcome_of_lacks hfault hcancel hvalid hlacks, hfree v hvalid hlacks]
      exact iff_of_false nofun (RuleStore.lacks_iff_not_holds.mp hlacks e)
    · rw [RuleStore.lacks_iff_not_holds, not_forall_not] at hlacks
      obtain ⟨existing, hholds⟩ := hlacks
      rw [create_outcome_of_holds hs hfault hcancel hvalid hholds]
      constructor
      · rintro ⟨⟩
        exact hholds
      · intro he
        rw [hs.eq_of_holds he hholds]

end Create

/-- **A duplicate is spoken of truly just if no new rule is given an id that is taken.** In every
store that calls lead to, for every draft, under an id that the author gives or under a fresh one: a
create whose calls are answered and whose author does not give up is refused as a duplicate of
exactly the rule that holds its scope and text, unless the draft is in order and repeats no rule but
the author gives it the id of another one. Then it is refused as a duplicate of that one. -/
theorem create_eq_duplicateRule_iff {s : RuleStore} (hs : s.Reached) (r : RuleDraft)
    (now : Timestamp) (pinned : Option String) {fresh : String} (hfresh : s.get? fresh = none)
    {w : Script.Circumstances} (hfault : w.fault.failure = none) (hcancel : w.cancelAt = none) :
    let outcome := ((Authoring.create (pinned.getD fresh) r now).run w s).outcome
    ((∀ e, outcome = .error (.rule (.duplicateRule e))
        ↔ ∃ v, r.validate = .ok v ∧ s.Holds e v.scope v.text)
      ↔ ∀ v id, r.validate = .ok v → s.Lacks v.scope v.text → pinned = some id → s.get? id = none)
      ∧ ∀ v id t, r.validate = .ok v → s.Lacks v.scope v.text → pinned = some id →
          s.get? id = some t → outcome = .error (.rule (.duplicateRule id)) := by
  intro outcome
  have htaken : ∀ v id t, r.validate = .ok v → s.Lacks v.scope v.text → pinned = some id →
      s.get? id = some t → outcome = .error (.rule (.duplicateRule id)) := by
    rintro v id t hvalid hlacks rfl ht
    refine (create_outcome_of_lacks hfault hcancel hvalid hlacks).trans ?_
    rw [Option.getD_some, ht]
  refine ⟨⟨fun h v id hvalid hlacks hpinned => ?_, fun hfree e => ?_⟩, htaken⟩
  · rw [Option.eq_none_iff_forall_ne_some]
    intro t ht
    obtain ⟨v', hvalid', hholds⟩ := (h id).mp (htaken v id t hvalid hlacks hpinned ht)
    cases hvalid.symm.trans hvalid'
    exact RuleStore.lacks_iff_not_holds.mp hlacks id hholds
  · refine create_eq_duplicateRule_of_free hs.noRepeats hfault hcancel fun v hvalid hlacks => ?_
    cases pinned with
    | none => exact hfresh
    | some id => exact hfree v id hvalid hlacks rfl

/-- The theorem on a store with one rule: what repeats it under a fresh id is a duplicate of it. -/
theorem create_eq_duplicateRule_iff_repeated :
    let draft : RuleDraft :=
      { decision := "declined", isGlobal := true,
        clauses := [{ field := some "amount", operator := .gt, value := .number 1 }] }
    let s := ((Authoring.create "r1" draft ⟨1, 0⟩).run {} .empty).store
    s.Reached ∧ s.get? "r2" = none ∧ s.Holds "r1" .global "amount gt 1"
      ∧ ((Authoring.create "r2" draft ⟨2, 0⟩).run {} s).outcome
          = .error (.rule (.duplicateRule "r1")) := by
  intro draft s
  have hs : s.Reached := RuleStore.Reached.empty.run _ _
  have hfresh : s.get? "r2" = none := by decide +kernel
  have hvalid : draft.validate = .ok ⟨.global, .declined, "amount gt 1", false⟩ := by
    decide +kernel
  have hkept : (s.get? "r1").map (fun t => (t.scope, t.text)) = some (.global, "amount gt 1") := by
    decide +kernel
  have hholds : s.Holds "r1" .global "amount gt 1" := by
    obtain ⟨t, hget, heq⟩ := Option.map_eq_some_iff.mp hkept
    exact ⟨t, hget, Prod.mk.inj heq⟩
  obtain ⟨hiff, -⟩ :=
    create_eq_duplicateRule_iff (w := {}) hs draft ⟨2, 0⟩ none hfresh rfl rfl
  have hunpinned : ∀ v id, draft.validate = .ok v → s.Lacks v.scope v.text → none = some id →
      s.get? id = none :=
    fun _ _ _ _ h => nomatch h
  exact ⟨hs, hfresh, hholds, (hiff.mpr hunpinned "r1").mpr ⟨_, hvalid, hholds⟩⟩

/-- A duplicate that is none. The second rule is of the scope of the first but of another text, and
is given its id. -/
theorem create_duplicateRule_of_takenId :
    let draft (limit : Float) : RuleDraft :=
      { decision := "declined", isGlobal := true,
        clauses := [{ field := some "amount", operator := .gt, value := .number limit }] }
    let s := ((Authoring.create "r1" (draft 1) ⟨1, 0⟩).run {} .empty).store
    s.Reached ∧ (draft 2).validate = .ok ⟨.global, .declined, "amount gt 2", false⟩
      ∧ ¬ s.Holds "r1" .global "amount gt 2"
      ∧ ((Authoring.create "r1" (draft 2) ⟨2, 0⟩).run {} s).outcome
          = .error (.rule (.duplicateRule "r1")) := by
  intro draft s
  have hs : s.Reached := RuleStore.Reached.empty.run _ _
  have hvalid : (draft 2).validate = .ok ⟨.global, .declined, "amount gt 2", false⟩ := by
    decide +kernel
  have hkept : s.rules.map Rule.text = ["amount gt 1"] := by decide +kernel
  have hlacks : s.Lacks .global "amount gt 2" := by
    intro t ht _ htext
    have hmem : t.text ∈ s.rules.map Rule.text := List.mem_map_of_mem ht
    rw [hkept, htext] at hmem
    exact absurd hmem (by decide)
  have htaken : (s.get? "r1").isSome = true := by decide +kernel
  obtain ⟨t, ht⟩ := Option.isSome_iff_exists.mp htaken
  refine ⟨hs, hvalid, RuleStore.lacks_iff_not_holds.mp hlacks "r1", ?_⟩
  rw [create_outcome_of_lacks rfl rfl hvalid hlacks, ht]

end ChargeScreening
