import ChargeScreening.Proofs.Authoring.Interleaving
import ChargeScreening.Proofs.Authoring.Sequence
import ChargeScreening.Proofs.Rule.Consistency

/-!
# What operations store

A rule gets into the store through a call that brings it along, and operations bring along only what
they have built from a checked draft. So what holds of every rule that is built holds of every rule
that is stored: after any row of operations, whatever goes wrong in them, and between any two turns
of authors who work at the same time.

## Main definitions

* `RuleCall.Brings` — a call that brings along no rule without some property
* `RuleStore.Consistent` — a store of consistent rules

## Main results

* `RuleStore.forall_serve`, `Script.forall_runFrom` — what such calls preserve
* `Operation.script_brings` — operations bring along consistent rules
* `consistent_serveAll`, `World.consistent_run` — every store that is reached is consistent
-/

namespace ChargeScreening

/-- A call that brings along no rule without some property. -/
def RuleCall.Brings (P : Rule → Prop) {α : Type} : RuleCall α → Prop
  | .insert r | .update r => P r
  | .find _ | .get _ | .delete _ => True

section Preserved

variable {P : Rule → Prop} {s : RuleStore} {α : Type}

/-- What holds of all stored rules still does after a call that brings along no other rule. -/
theorem RuleStore.forall_serve (h : ∀ r ∈ s.rules, P r) {c : RuleCall α} (hc : c.Brings P) :
    ∀ r ∈ (s.serve c).2.rules, P r := by
  have hput {r : Rule} (hr : P r) : ∀ t ∈ (s.put r).rules, P t := by
    intro t ht
    rcases mem_put_iff.mp ht with rfl | ⟨ht, -⟩
    · exact hr
    · exact h t ht
  cases c with
  | find q => exact h
  | get id =>
    rw [serve]
    split <;> exact h
  | insert r =>
    rw [serve]
    rcases s.settle_cases (s.insert r) with hsame | hok
    · rwa [hsame]
    · rw [(insert_eq_ok_iff.mp hok).2.2]
      exact hput hc
  | update r =>
    rw [serve]
    rcases s.settle_cases (s.update r) with hsame | hok
    · rwa [hsame]
    · rw [(update_eq_ok_iff.mp hok).2.2]
      exact hput hc
  | delete id =>
    rw [serve]
    rcases s.settle_cases (s.delete id) with hsame | hok
    · rwa [hsame]
    · rw [(delete_eq_ok_iff.mp hok).2]
      exact fun r hr => h r (mem_erase_iff.mp hr).1

/-- So it does after a script that makes only such calls, whatever goes wrong. -/
theorem Script.forall_runFrom (h : ∀ r ∈ s.rules, P r) {script : Script α}
    (hscript : script.Makes (fun _ c => c.Brings P) false) (w : Circumstances) (time : Nat) :
    ∀ r ∈ (script.runFrom w time s).store.rules, P r := by
  induction script generalizing s time with
  | done a => exact h
  | fail e => exact h
  | call c next ih =>
    rw [runFrom_call]
    refine ih _ ?_ (hscript.2 _) _
    -- A call that goes wrong does not reach the store.
    obtain ⟨reason, -, hserve⟩ | ⟨-, hserve⟩ := w.serve_cases s c
    · rwa [hserve]
    · rw [hserve]
      exact RuleStore.forall_serve h hscript.1
  | checkpoint next ih =>
    rw [runFrom]
    split
    · exact h
    · exact ih h (hscript.resolve_left Bool.false_ne_true) time

end Preserved

/-! ### Consistent stores -/

/-- A store of consistent rules. -/
def RuleStore.Consistent (s : RuleStore) : Prop :=
  ∀ r ∈ s.rules, r.Consistent

theorem RuleStore.consistent_empty : RuleStore.empty.Consistent := by
  intro r hr
  cases hr

/-- Operations bring along consistent rules. -/
theorem Operation.script_brings (op : Operation) :
    op.script.Makes (fun _ c => c.Brings Rule.Consistent) false := by
  refine script_makes (fun _ => trivial) (fun _ => trivial) ?_ ?_ (fun _ _ => trivial)
  · intro id r now v _ hvalid
    exact .inr (consistent_build hvalid id now)
  · intro id r now v createdAt _ hvalid
    exact (consistent_build hvalid id now).withCreatedAt createdAt

/-- So do requests, looking for a rule being one that brings along nothing. -/
theorem Request.script_brings (request : Request) :
    request.script.Makes (fun _ c => c.Brings Rule.Consistent) false := by
  cases request with
  | change op => exact op.script_brings
  | look id =>
    rw [script, Authoring.get, Script.ask_bind]
    refine ⟨trivial, fun answer => ?_⟩
    cases answer with
    | ok a => exact trivial
    | error e => exact trivial

theorem Attempt.consistent_serve (t : Attempt) {s : RuleStore} (h : s.Consistent) :
    (t.serve s).after.Consistent :=
  Script.forall_runFrom h t.request.script_brings t.circumstances t.circumstances.start

/-- **Attempts in a row leave a consistent store consistent**, each under circumstances of its
own. -/
theorem consistent_serveAll (attempts : List Attempt) {s : RuleStore} (h : s.Consistent) :
    (storeAfter s (serveAll s attempts)).Consistent := by
  induction attempts generalizing s with
  | nil => exact h
  | cons t rest ih =>
    rw [serveAll, storeAfter_cons]
    exact ih (t.consistent_serve h)

namespace World

variable {ι : Type} [DecidableEq ι]

/-- **Authors who work at the same time keep the store consistent**, after every single turn. -/
theorem consistent_run (ops : ι → Operation) (events : List (Event ι)) :
    ((start ops).run events).store.Consistent := by
  -- What the authors have left to call is part of the invariant: the next call is one of theirs.
  refine (run_induction
    (P := fun w => w.store.Consistent ∧ ∀ i,
      (w.author i).script.Makes (fun _ c => c.Brings Rule.Consistent) (w.author i).givenUp)
    ?_ ⟨RuleStore.consistent_empty, fun i => (ops i).script_brings⟩).1
  rintro w ⟨hstore, hauthors⟩ e -
  refine ⟨?_, fun i => makes_run [e] (hauthors i)⟩
  rcases w.store_step_cases e with hsame | ⟨i, β, c, next, -, hscript, hserve⟩
  · rwa [hsame]
  · have hcall := hauthors i
    rw [hscript] at hcall
    rw [hserve]
    exact RuleStore.forall_serve hstore hcall.1

end World

end ChargeScreening
