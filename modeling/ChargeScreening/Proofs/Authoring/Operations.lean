import ChargeScreening.Authoring.Basic
import ChargeScreening.Proofs.Store.Contents

/-!
# Operations turn by turn

A script takes turns: each makes one call to the store, or looks whether the author has given up.
For every operation the turns can be written down one after the other, and what an operation can
do to the store is read off from them.

## Main definitions

* `Operation` — an operation that changes the store, with its script
* `Script.turn` — one turn of a script
* `Script.Makes` — what a script can still call, whatever it is answered
* `Script.EndsWellOnlyWith` — a script that does not end well without a rule under some id
* `Script.EndsWithin` — how many turns a script takes at most

## Main results

* `create_script_of_ok`, `update_script`, `delete_script` — the turns of each operation
* `Operation.script_makes` — what each operation calls
* `Operation.script_endsWithin` — how many turns each operation takes
-/

namespace ChargeScreening

/-! ### Turns -/

namespace Script

variable {α : Type}

/-- One turn of a script: what is left of it, and the store. -/
def turn (up : Bool) (s : RuleStore) : Script α → Script α × RuleStore
  | .done a => (.done a, s)
  | .fail e => (.fail e, s)
  | .call c next => (next (s.serve c).1, (s.serve c).2)
  | .checkpoint next => (if up then .fail .cancelled else next, s)

/-- How a script has ended, if it has. -/
def outcome? : Script α → Option (Except ServiceError α)
  | .done a => some (.ok a)
  | .fail e => some (.error e)
  | _ => none

/-- Whether a script has ended well. -/
def isDone : Script α → Bool
  | .done _ => true
  | _ => false

/-- Makes a call that stores a rule, and ends with the rule. -/
def keep (c : RuleCall Unit) (rule : Rule) : Script (Option Rule) :=
  .call c fun
    | .ok () => .done (some rule)
    | .error (.conflict existing) => .fail (.rule (.duplicateRule existing))
    | .error e => .fail (.store e)

/-- Goes on unless one of the rules found has a text already. -/
def unlessRepeated (text : String) (updating : Option String) (next : Script α) :
    Except StoreError (List Rule) → Script α
  | .error e => .fail (.store e)
  | .ok existing =>
    match checkUnique text updating existing with
    | .error e => .fail (.rule e)
    | .ok _ => next

/-- What holds of every failure and of what comes next holds after the check for duplicates. -/
theorem unlessRepeated_cases {P : Script α → Prop} {text : String} {updating : Option String}
    {next : Script α} (hfail : ∀ e, P (.fail e)) (hnext : P next)
    (answer : Except StoreError (List Rule)) : P (unlessRepeated text updating next answer) := by
  unfold unlessRepeated
  split
  · exact hfail _
  · split
    · exact hfail _
    · exact hnext

/-! The turns of a row of scripts. -/

variable {β γ : Type}

@[simp] theorem pure_eq (a : α) : (pure a : Script α) = .done a := rfl

@[simp] theorem bind_eq (script : Script α) (f : α → Script β) : script >>= f = script.bind f := rfl

@[simp] theorem done_bind (a : α) (f : α → Script β) : (Script.done a).bind f = f a := rfl

@[simp] theorem fail_bind (e : ServiceError) (f : α → Script β) :
    (Script.fail e).bind f = .fail e := rfl

@[simp] theorem call_bind (c : RuleCall γ) (next : Except StoreError γ → Script α)
    (f : α → Script β) : (Script.call c next).bind f = .call c fun answer => (next answer).bind f :=
  rfl

@[simp] theorem checkpoint_bind (next : Script α) (f : α → Script β) :
    (Script.checkpoint next).bind f = .checkpoint (next.bind f) := rfl

theorem bind_assoc (script : Script α) (f : α → Script β) (g : β → Script γ) :
    (script.bind f).bind g = script.bind fun a => (f a).bind g := by
  induction script with
  | done a => rfl
  | fail e => rfl
  | call c next ih =>
    rw [call_bind, call_bind, call_bind]
    congr 1
    funext answer
    exact ih answer
  | checkpoint next ih => rw [checkpoint_bind, checkpoint_bind, checkpoint_bind, ih]

theorem ask_bind (c : RuleCall α) (f : α → Script β) :
    (ask c).bind f = .call c fun
      | .ok a => f a
      | .error e => .fail (.store e) := by
  rw [ask, call_bind]
  congr 1
  funext answer
  cases answer with
  | ok a => rfl
  | error e => rfl

theorem write_bind (c : RuleCall Unit) (rule : Rule) :
    (write c).bind (fun _ => .done (some rule)) = keep c rule := by
  rw [write, call_bind, keep]
  congr 1
  funext answer
  cases answer with
  | ok a => rfl
  | error e =>
    cases e with
    | conflict existing => rfl
    | notFound id => rfl
    | backend reason => rfl

theorem checked_bind_of_error {r : RuleDraft} {e : RuleError} (h : r.validate = .error e)
    (updating : Option String) (f : ValidatedRule → Script α) :
    (Authoring.checked r updating).bind f = .fail (.rule e) := by
  rw [Authoring.checked, h]
  rfl

theorem checked_bind_of_ok {r : RuleDraft} {v : ValidatedRule} (h : r.validate = .ok v)
    (updating : Option String) (f : ValidatedRule → Script α) :
    (Authoring.checked r updating).bind f
      = .call (.find (.exact v.scope)) (unlessRepeated v.text updating (f v)) := by
  rw [Authoring.checked, h]
  simp only [bind_eq, pure_eq, ofCheck, done_bind, ask_bind, call_bind]
  refine congrArg (Script.call _) (funext fun answer => ?_)
  cases answer with
  | error e => rfl
  | ok existing =>
    rw [unlessRepeated]
    cases h : checkUnique v.text updating existing with
    | error e => simp only [h, fail_bind]
    | ok _ => simp only [h, done_bind]

end Script

/-! ### Operations -/

/-- An operation that changes the store. -/
inductive Operation where
  | create (id : String) (draft : RuleDraft) (now : Timestamp)
  | update (id : String) (draft : RuleDraft) (now : Timestamp)
  | delete (id : String)

namespace Operation

open Script

/-- The id of the rule it is about. -/
def id : Operation → String
  | .create id _ _ => id
  | .update id _ _ => id
  | .delete id => id

/-- Whether it creates a rule. -/
def isCreate : Operation → Bool
  | .create .. => true
  | _ => false

/-- The script of an operation. It ends with the rule that it has stored, if it stores one. -/
def script : Operation → Script (Option Rule)
  | .create id r now => (Authoring.create id r now).bind fun rule => .done (some rule)
  | .update id r now => (Authoring.update id r now).bind fun rule => .done (some rule)
  | .delete id => (Authoring.delete id).bind fun _ => .done none

variable {id : String} {r : RuleDraft} {now : Timestamp} {v : ValidatedRule}

theorem create_script_of_error {e : RuleError} (h : r.validate = .error e) :
    (create id r now).script = .fail (.rule e) := by
  rw [script, Authoring.create, bind_eq, checked_bind_of_error h, fail_bind]

/-- The turns of a create whose draft is in order. -/
theorem create_script_of_ok (h : r.validate = .ok v) :
    (create id r now).script = .call (.find (.exact v.scope)) (unlessRepeated v.text none
      (.checkpoint (keep (.insert (r.build id v now)) (r.build id v now)))) := by
  rw [script, Authoring.create, bind_eq, bind_assoc, checked_bind_of_ok h]
  simp only [bind_eq, pure_eq, unlessGivenUp, checkpoint_bind, done_bind, bind_assoc, write_bind]

/-- The turns of an update. -/
theorem update_script :
    (update id r now).script = .call (.get id) fun
      | .error e => .fail (.store e)
      | .ok current =>
        match r.validate with
        | .error e => .fail (.rule e)
        | .ok v =>
          let rule := { r.build id v now with createdAt := current.createdAt }
          .call (.find (.exact v.scope)) (unlessRepeated v.text (some id)
            (.checkpoint (keep (.update rule) rule))) := by
  rw [script, Authoring.update, bind_eq, bind_assoc, ask_bind]
  congr 1
  funext answer
  cases answer with
  | error e => rfl
  | ok current =>
    simp only [bind_eq, bind_assoc]
    cases h : r.validate with
    | error e => rw [checked_bind_of_error h]
    | ok v =>
      rw [checked_bind_of_ok h]
      simp only [pure_eq, unlessGivenUp, checkpoint_bind, done_bind, write_bind]

/-- The turns of a delete. -/
theorem delete_script :
    (delete id).script = .checkpoint (.call (.delete id) fun
      | .ok _ => .done none
      | .error e => .fail (.store e)) := by
  rw [script, Authoring.delete, bind_eq, unlessGivenUp, checkpoint_bind, checkpoint_bind,
    done_bind, ask_bind]
  refine congrArg (fun next => Script.checkpoint (.call (.delete id) next)) ?_
  funext answer
  cases answer with
  | ok a => rfl
  | error e => rfl

end Operation

/-! ### What a script can still call -/

namespace Script

variable {α : Type} {kind : (β : Type) → RuleCall β → Prop} {up : Bool}

/-- Every call that a script can still make is of some kind, whatever it is answered. What stands
behind a checkpoint does not count once the author has given up. -/
def Makes (kind : (β : Type) → RuleCall β → Prop) (up : Bool) : Script α → Prop
  | .done _ => True
  | .fail _ => True
  | .call c next => kind _ c ∧ ∀ answer, (next answer).Makes kind up
  | .checkpoint next => up = true ∨ next.Makes kind up

/-- A turn leaves nothing to call that could not have been called before. -/
theorem Makes.turn {script : Script α} (h : script.Makes kind up) (s : RuleStore) :
    (script.turn up s).1.Makes kind up := by
  cases script with
  | done a => exact trivial
  | fail e => exact trivial
  | call c next => exact h.2 _
  | checkpoint next =>
    rw [Script.turn]
    split
    · exact trivial
    · next hup => exact h.resolve_left hup

theorem Makes.giveUp {script : Script α} (h : script.Makes kind up) : script.Makes kind true := by
  induction script with
  | done a => exact trivial
  | fail e => exact trivial
  | call c next ih => exact ⟨h.1, fun answer => ih answer (h.2 answer)⟩
  | checkpoint next => exact .inl rfl

/-- A script that has ended calls nothing. -/
theorem makes_of_outcome? {script : Script α} {outcome : Except ServiceError α}
    (h : script.outcome? = some outcome) : script.Makes kind up := by
  cases script with
  | done a => exact trivial
  | fail e => exact trivial
  | call c next => cases h
  | checkpoint next => cases h

theorem makes_keep {c : RuleCall Unit} {rule : Rule} (h : kind _ c) :
    (keep c rule).Makes kind up := by
  refine ⟨h, fun answer => ?_⟩
  cases answer with
  | ok a => exact trivial
  | error e => cases e <;> exact trivial

end Script

namespace Operation

open Script

variable {kind : (β : Type) → RuleCall β → Prop} {up : Bool}

/-- What an operation calls: it looks up what it needs, and then makes the one change it is for. -/
theorem script_makes {op : Operation} (hfind : ∀ q, kind _ (.find q))
    (hget : ∀ id, kind _ (.get id))
    (hinsert : ∀ id r now v, op = .create id r now → r.validate = .ok v →
      up = true ∨ kind _ (.insert (r.build id v now)))
    (hupdate : ∀ id r now v createdAt, op = .update id r now → r.validate = .ok v →
      kind _ (.update { r.build id v now with createdAt := createdAt }))
    (hdelete : ∀ id, op = .delete id → kind _ (.delete id)) : op.script.Makes kind up := by
  cases op with
  | create id r now =>
    cases h : r.validate with
    | error e =>
      rw [create_script_of_error h]
      exact trivial
    | ok v =>
      rw [create_script_of_ok h]
      refine ⟨hfind _, unlessRepeated_cases (fun _ => trivial) ?_⟩
      exact (hinsert id r now v rfl h).imp_right makes_keep
  | update id r now =>
    rw [update_script]
    refine ⟨hget id, fun answer => ?_⟩
    cases answer with
    | error e => exact trivial
    | ok current =>
      cases h : r.validate with
      | error e => exact trivial
      | ok v =>
        refine ⟨hfind _, unlessRepeated_cases (fun _ => trivial) (.inr ?_)⟩
        exact makes_keep (hupdate id r now v _ rfl h)
  | delete id =>
    rw [delete_script]
    refine .inr ⟨hdelete id rfl, fun answer => ?_⟩
    cases answer with
    | error e => exact trivial
    | ok a => exact trivial

/-- Only a create brings its id in. -/
theorem script_makes_noBringsIn {op : Operation} {id : String}
    (h : op.isCreate = true → op.id ≠ id) :
    op.script.Makes (fun _ c => c.bringsIn id = false) up := by
  refine script_makes (fun _ => rfl) (fun _ => rfl) ?_ (fun _ _ _ _ _ _ _ => rfl) (fun _ _ => rfl)
  rintro id' r now v rfl -
  exact .inr (beq_eq_false_iff_ne.mpr (h rfl))

end Operation

/-! ### Ending well -/

namespace Script

variable {α : Type}

/-- A script that ends well only by a call to a store with a rule under some id. -/
def EndsWellOnlyWith (id : String) : Script α → Prop
  | .done _ => True
  | .fail _ => True
  | .call c next =>
    (∀ s : RuleStore, s.get? id = none → (next (s.serve c).1).isDone = false)
      ∧ ∀ answer, (next answer).EndsWellOnlyWith id
  | .checkpoint next => next.isDone = false ∧ next.EndsWellOnlyWith id

theorem EndsWellOnlyWith.turn {id : String} {script : Script α} (h : script.EndsWellOnlyWith id)
    (up : Bool) (s : RuleStore) : (script.turn up s).1.EndsWellOnlyWith id := by
  cases script with
  | done a => exact trivial
  | fail e => exact trivial
  | call c next => exact h.2 _
  | checkpoint next =>
    rw [Script.turn]
    split
    · exact trivial
    · exact h.2

/-- Without the rule it needs, a script does not end well. -/
theorem isDone_turn_eq_false {id : String} {script : Script α} (h : script.EndsWellOnlyWith id)
    (hdone : script.isDone = false) {s : RuleStore} (hs : s.get? id = none) (up : Bool) :
    (script.turn up s).1.isDone = false := by
  cases script with
  | done a => cases hdone
  | fail e => rfl
  | call c next => exact h.1 s hs
  | checkpoint next =>
    rw [Script.turn]
    split
    · rfl
    · exact h.1

end Script

namespace Operation

open Script

/-- An update ends well only with a rule to replace. -/
theorem endsWellOnlyWith_update (id : String) (r : RuleDraft) (now : Timestamp) :
    (update id r now).script.EndsWellOnlyWith id := by
  rw [update_script]
  refine ⟨fun s hs => ?_, fun answer => ?_⟩
  · rw [RuleStore.serve, hs]
    rfl
  · cases answer with
    | error e => exact trivial
    | ok current =>
      cases r.validate with
      | error e => exact trivial
      | ok v =>
        have hdone (answer : Except StoreError (List Rule)) (next : Script (Option Rule)) :
            (unlessRepeated v.text (some id) (.checkpoint next) answer).isDone = false :=
          unlessRepeated_cases (P := fun left => left.isDone = false) (fun _ => rfl) rfl answer
        refine ⟨fun s _ => hdone _ _, unlessRepeated_cases (fun _ => trivial) ?_⟩
        refine ⟨rfl, fun s hs => ?_, fun answer => ?_⟩
        · rw [RuleStore.serve, RuleStore.update]
          simp only [RuleDraft.build, hs]
          rfl
        · cases answer with
          | ok a => exact trivial
          | error e => cases e <;> exact trivial

end Operation

/-! ### How many turns there are -/

namespace Script

variable {α : Type}

/-- A script that ends after some number of turns at the latest. -/
def EndsWithin : Nat → Script α → Prop
  | _, .done _ => True
  | _, .fail _ => True
  | 0, _ => False
  | n + 1, .call _ next => ∀ answer, (next answer).EndsWithin n
  | n + 1, .checkpoint next => next.EndsWithin n

theorem endsWithin_done (n : Nat) (a : α) : (Script.done a).EndsWithin n := by
  cases n with
  | zero => exact trivial
  | succ n => exact trivial

theorem endsWithin_fail (n : Nat) (e : ServiceError) : (Script.fail e : Script α).EndsWithin n := by
  cases n with
  | zero => exact trivial
  | succ n => exact trivial

theorem EndsWithin.turn {n : Nat} {script : Script α} (h : script.EndsWithin n) (up : Bool)
    (s : RuleStore) : (script.turn up s).1.EndsWithin (n - 1) := by
  cases script with
  | done a => exact endsWithin_done _ a
  | fail e => exact endsWithin_fail _ e
  | call c next =>
    cases n with
    | zero => cases h
    | succ n => exact h _
  | checkpoint next =>
    cases n with
    | zero => cases h
    | succ n =>
      rw [Script.turn]
      split
      · exact endsWithin_fail _ _
      · exact h

/-- A script without turns left has ended. -/
theorem exists_outcome_of_endsWithin_zero {script : Script α} (h : script.EndsWithin 0) :
    ∃ outcome, script.outcome? = some outcome := by
  cases script with
  | done a => exact ⟨.ok a, rfl⟩
  | fail e => exact ⟨.error e, rfl⟩
  | call c next => cases h
  | checkpoint next => cases h

theorem endsWithin_checkpoint_keep (c : RuleCall Unit) (rule : Rule) :
    (Script.checkpoint (keep c rule)).EndsWithin 2 := by
  intro answer
  cases answer with
  | ok a => exact trivial
  | error e => cases e <;> exact trivial

end Script

namespace Operation

open Script

/-- How many turns an operation takes at most. -/
def turns : Operation → Nat
  | .create .. => 3
  | .update .. => 4
  | .delete _ => 2

/-- Every operation ends. -/
theorem script_endsWithin (op : Operation) : op.script.EndsWithin op.turns := by
  cases op with
  | create id r now =>
    cases h : r.validate with
    | error e =>
      rw [create_script_of_error h]
      exact trivial
    | ok v =>
      rw [create_script_of_ok h]
      exact unlessRepeated_cases (endsWithin_fail 2) (endsWithin_checkpoint_keep _ _)
  | update id r now =>
    rw [update_script]
    intro answer
    cases answer with
    | error e => exact trivial
    | ok current =>
      cases r.validate with
      | error e => exact trivial
      | ok v => exact unlessRepeated_cases (endsWithin_fail 2) (endsWithin_checkpoint_keep _ _)
  | delete id =>
    rw [delete_script]
    intro answer
    cases answer with
    | error e => exact trivial
    | ok a => exact trivial

end Operation

end ChargeScreening
