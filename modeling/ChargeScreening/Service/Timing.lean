import ChargeScreening.Service.Error

/-!
# Time

Calls to the stores may be slow, may fail, and may be overtaken by the caller giving up. Time is
counted in milliseconds from the start of an operation, and moves only while something is waited
for.

## Main definitions

* `Fault`: how late a call is answered, and whether it fails
* `Timed`: a value with the time at which it is there
* `givenUp`: whether the caller has given up by some time
* `await`: a call under a time limit, which the caller's giving up overtakes

## Main results

* `await_ok_iff`: when a call that is waited for is answered
-/

namespace ChargeScreening

/-- How a call goes wrong. By default it does not. -/
structure Fault where
  /-- How late the answer is. -/
  delayMs : Nat := 0
  /-- What the storage reports in place of an answer. -/
  failure : Option String := none
deriving DecidableEq, Repr

/-- The answer to a call, unless the call fails. -/
def Fault.reply {α : Type} (f : Fault) (answer : α) : Except ServiceError α :=
  match f.failure with
  | some reason => .error (.store (.backend reason))
  | none => .ok answer

/-- A value and the time at which it is there. -/
structure Timed (α : Type) where
  time : Nat
  value : α
deriving Repr

/-- Whether the caller has given up by some time. -/
def givenUp (cancelAt : Option Nat) (time : Nat) : Bool :=
  cancelAt.any fun c => decide (c ≤ time)

/-- Waits for a call that starts at some time, but not longer than the limit and not beyond the
moment at which the caller gives up. An answer that is due when the limit is reached still
counts, one that is due when the caller gives up does not. -/
def await {α : Type} (cancelAt : Option Nat) (limitMs : Nat) (operation : String) (start : Nat)
    (f : Fault) (answer : α) : Timed (Except ServiceError α) :=
  let stop := start + min f.delayMs limitMs
  if givenUp cancelAt stop then ⟨max start (cancelAt.getD stop), .error .cancelled⟩
  else if f.delayMs ≤ limitMs then ⟨stop, f.reply answer⟩
  else ⟨stop, .error (.deadlineExceeded operation)⟩

/-- A call is answered when the caller does not give up before, the limit is kept, and nothing
fails. -/
theorem await_ok_iff {α : Type} {cancelAt : Option Nat} {limitMs : Nat} {operation : String}
    {start : Nat} {f : Fault} {answer a : α} :
    (await cancelAt limitMs operation start f answer).value = .ok a
      ↔ givenUp cancelAt (start + f.delayMs) = false ∧ f.delayMs ≤ limitMs ∧ f.failure = none
        ∧ answer = a := by
  unfold await
  by_cases hlimit : f.delayMs ≤ limitMs
  · rw [Nat.min_eq_left hlimit]
    cases hup : givenUp cancelAt (start + f.delayMs) <;> cases hf : f.failure
      <;> simp [hup, hlimit, Fault.reply, hf]
  · cases hup : givenUp cancelAt (start + min f.delayMs limitMs) <;> simp [hlimit, hup]

end ChargeScreening
