import ChargeScreening.Proofs.Authoring.Operations
import Mathlib.Logic.Function.Basic

/-!
# Authors at work on one store

Any number of authors share a store of rules. Each has one operation, carried out turn by turn: a
turn makes one call to the store, or looks whether the author has given up. Between two turns of an
author the others may take any number of theirs.

## Main definitions

* `Author` — what is left of a script, and whether the author has given up
* `World` — a store and the authors at work on it
* `World.step`, `World.run` — the world after one event and after a row of them

## Main results

* `exists_turns_eq_run` — an author who is left alone gets what `Script.run` yields
* `noRepeats_run` — the store never holds two rules that repeat each other
* `get?_run_eq_none` — an id that nobody creates stays absent
-/

namespace ChargeScreening

/-! ### Worlds -/

/-- An author: what is left of the script, and whether the author has given up. -/
structure Author where
  script : Script (Option Rule)
  givenUp : Bool := false

/-- An author who is about to start. -/
def Author.of (op : Operation) : Author where
  script := op.script

/-- A store and the authors at work on it. -/
structure World (ι : Type) where
  store : RuleStore
  author : ι → Author

/-- What happens next: an author takes a turn or gives up. -/
inductive Event (ι : Type) where
  | turn (i : ι)
  | giveUp (i : ι)
deriving DecidableEq

namespace World

variable {ι : Type} [DecidableEq ι]

/-- The authors are about to start on an empty store. -/
def start (ops : ι → Operation) : World ι where
  store := .empty
  author i := .of (ops i)

/-- The world after an event. -/
def step (w : World ι) : Event ι → World ι
  | .turn i =>
    let left := (w.author i).script.turn (w.author i).givenUp w.store
    { store := left.2
      author := Function.update w.author i { w.author i with script := left.1 } }
  | .giveUp i =>
    { w with author := Function.update w.author i { w.author i with givenUp := true } }

/-- The world after a row of events. -/
def run (w : World ι) (events : List (Event ι)) : World ι :=
  events.foldl step w

@[simp] theorem run_nil (w : World ι) : w.run [] = w := rfl

@[simp] theorem run_cons (w : World ι) (e : Event ι) (events : List (Event ι)) :
    w.run (e :: events) = (w.step e).run events := rfl

/-- What every event preserves holds ever after. -/
theorem run_induction {P : World ι → Prop} {events : List (Event ι)}
    (hstep : ∀ w, P w → ∀ e ∈ events, P (w.step e)) {w : World ι} (hw : P w) :
    P (w.run events) := by
  induction events generalizing w with
  | nil => exact hw
  | cons e events ih =>
    rw [run_cons]
    refine ih (fun w hw e' he' => hstep w hw e' (List.mem_cons_of_mem _ he')) ?_
    exact hstep w hw e (List.mem_cons_self ..)

/-- Whether an author takes part in what happens: takes a turn, and has not ended before. -/
def Acts (w : World ι) (events : List (Event ι)) (i : ι) : Prop :=
  .turn i ∈ events ∧ (w.author i).script.outcome? = none

/-! ### One step -/

theorem author_step_turn (w : World ι) (i : ι) :
    (w.step (.turn i)).author i = { w.author i with
      script := ((w.author i).script.turn (w.author i).givenUp w.store).1 } :=
  Function.update_self ..

theorem author_step_turn_of_ne (w : World ι) {i j : ι} (h : j ≠ i) :
    (w.step (.turn i)).author j = w.author j :=
  Function.update_of_ne h ..

theorem author_step_giveUp (w : World ι) (i : ι) :
    (w.step (.giveUp i)).author i = { w.author i with givenUp := true } :=
  Function.update_self ..

/-- An author is changed by turns and by giving up, and by nobody else's. -/
theorem author_step_cases (w : World ι) (e : Event ι) (j : ι) :
    (w.step e).author j = w.author j
      ∨ (e = .turn j ∧ (w.step e).author j = { w.author j with
          script := ((w.author j).script.turn (w.author j).givenUp w.store).1 })
      ∨ (e = .giveUp j ∧ (w.step e).author j = { w.author j with givenUp := true }) := by
  cases e with
  | turn i =>
    by_cases h : j = i
    · rw [h]
      exact .inr (.inl ⟨rfl, w.author_step_turn i⟩)
    · exact .inl (w.author_step_turn_of_ne h)
  | giveUp i =>
    by_cases h : j = i
    · rw [h]
      exact .inr (.inr ⟨rfl, w.author_step_giveUp i⟩)
    · exact .inl (Function.update_of_ne h ..)

/-- The store is changed by a call of the author whose turn it is. -/
theorem store_step_cases (w : World ι) (e : Event ι) :
    (w.step e).store = w.store
      ∨ ∃ (i : ι) (β : Type) (c : RuleCall β) (next : Except StoreError β → Script (Option Rule)),
          e = .turn i ∧ (w.author i).script = .call c next
            ∧ (w.step e).store = (w.store.serve c).2 := by
  cases e with
  | giveUp i => exact .inl rfl
  | turn i =>
    cases hscript : (w.author i).script with
    | done a =>
      refine .inl ?_
      rw [step, hscript]
      rfl
    | fail e =>
      refine .inl ?_
      rw [step, hscript]
      rfl
    | checkpoint next =>
      refine .inl ?_
      rw [step, hscript]
      rfl
    | call c next =>
      refine .inr ⟨i, _, c, next, rfl, hscript, ?_⟩
      rw [step, hscript]
      rfl

/-! ### An author left alone -/

/-- An author who is left alone gets what `Script.run` yields, and so does the store. -/
theorem exists_turns_eq_run (w : World ι) (i : ι) :
    ∃ n, let alone := w.run (List.replicate n (.turn i))
      let result := (w.author i).script.run
        { cancelAt := if (w.author i).givenUp then some 0 else none } w.store
      (alone.author i).script.outcome? = some result.outcome ∧ alone.store = result.store := by
  suffices h : ∀ (script : Script (Option Rule)) (w : World ι), (w.author i).script = script →
      ∃ n, let alone := w.run (List.replicate n (.turn i))
        let result := script.runFrom
          { cancelAt := if (w.author i).givenUp then some 0 else none } 0 w.store
        (alone.author i).script.outcome? = some result.outcome ∧ alone.store = result.store from
    h _ w rfl
  intro script
  induction script with
  | done a =>
    intro w hscript
    refine ⟨0, ?_, rfl⟩
    rw [List.replicate_zero, run_nil, hscript]
    rfl
  | fail e =>
    intro w hscript
    refine ⟨0, ?_, rfl⟩
    rw [List.replicate_zero, run_nil, hscript]
    rfl
  | call c next ih =>
    intro w hscript
    obtain ⟨n, hn⟩ := ih (w.store.serve c).1 (w.step (.turn i)) (by
      rw [author_step_turn, hscript]
      rfl)
    rw [author_step_turn, hscript] at hn
    refine ⟨n + 1, ?_⟩
    rw [List.replicate_succ, run_cons]
    have hstore : (w.step (.turn i)).store = (w.store.serve c).2 := by
      rw [step, hscript]
      rfl
    rw [hstore] at hn
    exact hn
  | checkpoint next ih =>
    intro w hscript
    have hstore : (w.step (.turn i)).store = w.store := by
      rw [step, hscript]
      rfl
    cases hup : (w.author i).givenUp with
    | true =>
      refine ⟨1, ?_, hstore⟩
      rw [List.replicate_one, run_cons, run_nil, author_step_turn, hscript, hup]
      rfl
    | false =>
      obtain ⟨n, hn⟩ := ih (w.step (.turn i)) (by
        rw [author_step_turn, hscript, hup]
        rfl)
      rw [author_step_turn, hup, hstore] at hn
      refine ⟨n + 1, ?_⟩
      rw [List.replicate_succ, run_cons]
      exact hn

/-! ### What is left to an author -/

section Left

variable {kind : (β : Type) → RuleCall β → Prop} {w : World ι} {i : ι}

/-- What an author can still call was possible from the start. -/
theorem makes_run (events : List (Event ι))
    (h : (w.author i).script.Makes kind (w.author i).givenUp) :
    ((w.run events).author i).script.Makes kind ((w.run events).author i).givenUp := by
  refine run_induction (P := fun w => (w.author i).script.Makes kind (w.author i).givenUp) ?_ h
  intro w hw e _
  rcases w.author_step_cases e i with hsame | ⟨-, hturn⟩ | ⟨-, hup⟩
  · rwa [hsame]
  · rw [hturn]
    exact hw.turn w.store
  · rw [hup]
    exact hw.giveUp

omit [DecidableEq ι] in
/-- Whoever does not act calls nothing. -/
theorem makes_of_acts {events : List (Event ι)}
    (h : w.Acts events i → (w.author i).script.Makes kind (w.author i).givenUp)
    (hturn : .turn i ∈ events) : (w.author i).script.Makes kind (w.author i).givenUp := by
  cases houtcome : (w.author i).script.outcome? with
  | some outcome => exact Script.makes_of_outcome? houtcome
  | none => exact h ⟨hturn, houtcome⟩

theorem endsWellOnlyWith_run {id : String} (events : List (Event ι))
    (h : (w.author i).script.EndsWellOnlyWith id) :
    ((w.run events).author i).script.EndsWellOnlyWith id := by
  refine run_induction (P := fun w => (w.author i).script.EndsWellOnlyWith id) ?_ h
  intro w hw e _
  rcases w.author_step_cases e i with hsame | ⟨-, hturn⟩ | ⟨-, hup⟩
  · rwa [hsame]
  · rw [hturn]
    exact hw.turn _ w.store
  · rw [hup]
    exact hw

/-- Every turn brings an author closer to the end. -/
theorem endsWithin_run {n : Nat} (events : List (Event ι))
    (h : (w.author i).script.EndsWithin n) :
    ((w.run events).author i).script.EndsWithin (n - events.count (.turn i)) := by
  induction events generalizing w n with
  | nil => exact h
  | cons e events ih =>
    rw [run_cons]
    by_cases he : e = .turn i
    · have hleft : ((w.step e).author i).script.EndsWithin (n - 1) := by
        rw [he, author_step_turn]
        exact h.turn _ _
      have hcount : (e :: events).count (.turn i) = 1 + events.count (.turn i) := by
        rw [he, List.count_cons_self, Nat.add_comm]
      rw [hcount, ← Nat.sub_sub]
      exact ih hleft
    · have hleft : ((w.step e).author i).script.EndsWithin n := by
        rcases w.author_step_cases e i with hsame | ⟨hturn, -⟩ | ⟨-, hup⟩
        · rwa [hsame]
        · exact absurd hturn he
        · rwa [hup]
      rw [List.count_cons_of_ne he]
      exact ih hleft

end Left

/-! ### What the store keeps -/

/-- **The store never holds two rules that repeat each other.** -/
theorem noRepeats_run {w : World ι} (events : List (Event ι)) (h : w.store.NoRepeats) :
    (w.run events).store.NoRepeats := by
  refine run_induction (P := fun w => w.store.NoRepeats) ?_ h
  intro w hw e _
  rcases w.store_step_cases e with hsame | ⟨i, β, c, next, -, -, hserve⟩
  · rwa [hsame]
  · rw [hserve]
    exact hw.serve c

/-- An absent id stays absent in a step unless someone is about to bring it in. -/
theorem get?_step_eq_none {w : World ι} {id : String} (h : w.store.get? id = none) {e : Event ι}
    (hmakes : ∀ i, e = .turn i →
      (w.author i).script.Makes (fun _ c => c.bringsIn id = false) (w.author i).givenUp) :
    (w.step e).store.get? id = none := by
  rcases w.store_step_cases e with hsame | ⟨i, β, c, next, he, hscript, hserve⟩
  · rwa [hsame]
  · have hcall := hmakes i he
    rw [hscript] at hcall
    rw [hserve]
    exact RuleStore.get?_serve_eq_none h hcall.1

/-- **An id that nobody creates stays absent**, and whoever needs a rule under it does not end
well. -/
theorem get?_run_eq_none {w : World ι} {id : String} (h : w.store.get? id = none)
    {events : List (Event ι)}
    (hmakes : ∀ i, .turn i ∈ events →
      (w.author i).script.Makes (fun _ c => c.bringsIn id = false) (w.author i).givenUp) :
    (w.run events).store.get? id = none
      ∧ ∀ i, (w.author i).script.EndsWellOnlyWith id → (w.author i).script.isDone = false →
        ((w.run events).author i).script.isDone = false := by
  induction events generalizing w with
  | nil => exact ⟨h, fun _ _ hdone => hdone⟩
  | cons e events ih =>
    have habsent : (w.step e).store.get? id = none := by
      refine get?_step_eq_none h fun i he => hmakes i ?_
      rw [he]
      exact List.mem_cons_self ..
    have hleft : ∀ i, .turn i ∈ events → ((w.step e).author i).script.Makes
        (fun _ c => c.bringsIn id = false) ((w.step e).author i).givenUp := fun i hi =>
      makes_run [e] (hmakes i (List.mem_cons_of_mem _ hi))
    obtain ⟨hrun, hdone⟩ := ih habsent hleft
    refine ⟨hrun, fun i hneeds hi => hdone i (endsWellOnlyWith_run [e] hneeds) ?_⟩
    rcases w.author_step_cases e i with hsame | ⟨-, hturn⟩ | ⟨-, hup⟩
    · rwa [hsame]
    · rw [hturn]
      exact Script.isDone_turn_eq_false hneeds hi h _
    · rwa [hup]

end World

end ChargeScreening
