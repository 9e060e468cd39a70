import ChargeScreening.Proofs.Authoring.Operations

/-!
# Operations one after the other

One author after the other works on a store of rules, each under circumstances of its own: calls may
fail or be slow, and the author may have given up. An operation makes its one change or none at all,
and says truly which. So what is kept under an id is always what the history says was written there
last.

## Main definitions

* `Request`, `Attempt`, `Served` — what is asked, under which circumstances, and what came of it
* `serveAll` — attempts carried out one after the other
* `lastWritten?` — the rule under an id according to the history
* `Served.AllOrNothing` — what every attempt keeps to

## Main results

* `Operation.commits` — an operation does what it is for or leaves the store alone
* `allOrNothing_serveAll` — every attempt in a row keeps to all of this
-/

namespace ChargeScreening

/-! ### Attempts -/

/-- What is asked of the authoring service: a change, or the rule of an id. -/
inductive Request where
  | change (op : Operation)
  | look (id : String)

/-- The script of a request. It ends with the rule that it has stored or found, if there is one. -/
def Request.script : Request → Script (Option Rule)
  | .change op => op.script
  | .look id => (Authoring.get id).bind fun rule => .done (some rule)

/-- A request and the circumstances under which it is carried out. -/
structure Attempt where
  request : Request
  circumstances : Script.Circumstances := {}

/-- Whether the caller has given up before the attempt starts. -/
def Attempt.abandoned (t : Attempt) : Bool :=
  givenUp t.circumstances.cancelAt t.circumstances.start

/-- An attempt that has been carried out, with the stores before and after it. -/
structure Served where
  attempt : Attempt
  before : RuleStore
  outcome : Except ServiceError (Option Rule)
  after : RuleStore

/-- What comes of an attempt. -/
def Attempt.serve (t : Attempt) (s : RuleStore) : Served :=
  let result := t.request.script.run t.circumstances s
  ⟨t, s, result.outcome, result.store⟩

/-- What comes of attempts that are carried out one after the other. -/
def serveAll (s : RuleStore) : List Attempt → List Served
  | [] => []
  | t :: rest => t.serve s :: serveAll (t.serve s).after rest

/-! ### The history of an id -/

/-- What a successful change has put under an id: a rule, or nothing if it has deleted the one that
was there. There is no effect on other ids. -/
def Served.effect? (id : String) (served : Served) : Option (Option Rule) :=
  match served.attempt.request, served.outcome with
  | .change _, .ok (some rule) => if rule.id = id then some (some rule) else none
  | .change op, .ok none => if op.id = id then some none else none
  | _, _ => none

/-- The rule under an id after some attempts: the one that was written last, if it was not deleted
since. An id that no attempt had an effect on keeps what it had. -/
def lastWritten? (s : RuleStore) (earlier : List Served) (id : String) : Option Rule :=
  (earlier.filterMap (Served.effect? id)).getLast?.getD (s.get? id)

/-- The store that some attempts leave behind. -/
def storeAfter (s : RuleStore) (earlier : List Served) : RuleStore :=
  (earlier.getLast?.map Served.after).getD s

/-! ### What an operation does -/

/-- Two stores keep the same under every id but one. -/
def RuleStore.SameBut (id : String) (s s' : RuleStore) : Prop :=
  ∀ other, other ≠ id → s'.get? other = s.get? other

theorem RuleStore.sameBut_put (s : RuleStore) (r : Rule) : s.SameBut r.id (s.put r) := by
  intro other hother
  rw [get?_put, if_neg hother.symm]

theorem RuleStore.sameBut_erase (s : RuleStore) (id : String) : s.SameBut id (s.erase id) := by
  intro other hother
  rw [get?_erase, if_neg hother]

/-- What an operation is for, as a relation between a store, the rule that the operation answers
with, and the store afterwards. -/
def Operation.Does (s : RuleStore) : Operation → Option Rule → RuleStore → Prop
  | .create id _ _, stored, s' => ∃ rule, stored = some rule ∧ rule.id = id
    ∧ s.insert rule = .ok s'
  | .update id _ _, stored, s' => ∃ old rule, s.get? id = some old ∧ stored = some rule
    ∧ rule.id = id ∧ rule.createdAt = old.createdAt ∧ s.update rule = .ok s'
  | .delete id, stored, s' => stored = none ∧ s.delete id = .ok s'

/-! ### Calls under circumstances -/

namespace RuleStore

variable {s s' : RuleStore} {change : Except StoreError RuleStore}

theorem settle_eq_ok_iff : s.settle change = (.ok (), s') ↔ change = .ok s' := by
  cases change <;> simp [settle]

theorem settle_of_error {e : StoreError} (h : (s.settle change).1 = .error e) :
    (s.settle change).2 = s := by
  cases change with
  | ok s' => cases h
  | error e => rfl

/-- A call that is refused leaves the store alone. -/
theorem serve_of_error {α : Type} {c : RuleCall α} {e : StoreError}
    (h : (s.serve c).1 = .error e) : (s.serve c).2 = s := by
  cases c with
  | find q => rfl
  | get id =>
    rw [serve]
    split <;> rfl
  | insert r => exact settle_of_error h
  | update r => exact settle_of_error h
  | delete id => exact settle_of_error h

end RuleStore

namespace Script

variable {α : Type} {w : Circumstances} {s s' : RuleStore}

/-- A call is served by the store, or fails without reaching it. -/
theorem Circumstances.serve_cases (w : Circumstances) (s : RuleStore) (c : RuleCall α) :
    (∃ reason, w.fault.failure = some reason ∧ w.serve s c = (.error (.backend reason), s))
      ∨ w.fault.failure = none ∧ w.serve s c = s.serve c := by
  rw [Circumstances.serve]
  cases w.fault.failure with
  | none => exact .inr ⟨rfl, rfl⟩
  | some reason => exact .inl ⟨reason, rfl, rfl⟩

theorem store_of_serve_error {c : RuleCall α} {e : StoreError} (h : (w.serve s c).1 = .error e) :
    (w.serve s c).2 = s := by
  obtain ⟨reason, -, hserve⟩ | ⟨-, hserve⟩ := w.serve_cases s c
  · rw [hserve]
  · rw [hserve] at h ⊢
    exact RuleStore.serve_of_error h

/-- A call that is answered well has been served by the store. -/
theorem serve_of_ok {c : RuleCall α} {a : α} (h : w.serve s c = (.ok a, s')) :
    s.serve c = (.ok a, s') := by
  obtain ⟨reason, -, hserve⟩ | ⟨-, hserve⟩ := w.serve_cases s c
  · rw [hserve] at h
    cases h
  · rwa [hserve] at h

/-- Who has given up does so for good. -/
theorem givenUp_mono {cancelAt : Option Nat} {time later : Nat} (h : time ≤ later)
    (hup : givenUp cancelAt time = true) : givenUp cancelAt later = true := by
  cases cancelAt with
  | none => cases hup
  | some c => exact decide_eq_true (Nat.le_trans (of_decide_eq_true hup) h)

theorem runFrom_call {β : Type} (c : RuleCall β) (next : Except StoreError β → Script α)
    (time : Nat) :
    (Script.call c next).runFrom w time s
      = (next (w.serve s c).1).runFrom w (time + w.fault.delayMs) (w.serve s c).2 := rfl

/-! ### All or nothing -/

/-- A script has failed and left the store alone, or has done what it is for. -/
def Result.Commits (s : RuleStore) (does : α → RuleStore → Prop) (result : Result α) : Prop :=
  (∃ e, result.outcome = .error e ∧ result.store = s)
    ∨ ∃ a, result.outcome = .ok a ∧ does a result.store

/-- Whenever it goes on from a store, the script fails and leaves the store alone, or does what it
is for, and this only for a caller who has not given up from the start. -/
def Commits (w : Circumstances) (s : RuleStore) (does : α → RuleStore → Prop) (script : Script α) :
    Prop :=
  ∀ time, w.start ≤ time → (script.runFrom w time s).Commits s fun a s' =>
    does a s' ∧ givenUp w.cancelAt w.start = false

variable {does : α → RuleStore → Prop}

theorem commits_fail (e : ServiceError) : (Script.fail e : Script α).Commits w s does :=
  fun _ _ => .inl ⟨e, rfl, rfl⟩

/-- A call that leaves the store alone is no more than a question. -/
theorem commits_call {β : Type} {c : RuleCall β} {next : Except StoreError β → Script α}
    (hsame : (w.serve s c).2 = s) (hnext : (next (w.serve s c).1).Commits w s does) :
    (Script.call c next).Commits w s does := by
  intro time htime
  rw [runFrom_call, hsame]
  exact hnext _ (Nat.le_add_right_of_le htime)

/-- What stands behind a checkpoint is done only for a caller who has not given up. -/
theorem commits_checkpoint {next : Script α}
    (hnext : ∀ time, (next.runFrom w time s).Commits s does) :
    (Script.checkpoint next).Commits w s does := by
  intro time htime
  rw [runFrom]
  cases hup : givenUp w.cancelAt time with
  | true => exact .inl ⟨.cancelled, rfl, rfl⟩
  | false =>
    have hstart : givenUp w.cancelAt w.start = false := by
      refine Bool.eq_false_iff.mpr fun hstart => ?_
      rw [givenUp_mono htime hstart] at hup
      cases hup
    exact (hnext time).imp_right fun ⟨a, hok, hdoes⟩ => ⟨a, hok, hdoes, hstart⟩

/-- A call that stores a rule is answered well, or leaves the store alone. -/
theorem commits_keep {does : Option Rule → RuleStore → Prop} {c : RuleCall Unit} {rule : Rule}
    (hdoes : ∀ s', s.serve c = (.ok (), s') → does (some rule) s') (time : Nat) :
    ((keep c rule).runFrom w time s).Commits s does := by
  rw [keep, runFrom_call]
  cases hanswer : (w.serve s c).1 with
  | ok a =>
    exact .inr ⟨some rule, rfl, hdoes _ (serve_of_ok (w := w) (Prod.ext hanswer rfl))⟩
  | error e =>
    rw [store_of_serve_error hanswer]
    cases e with
    | conflict existing => exact .inl ⟨_, rfl, rfl⟩
    | notFound id => exact .inl ⟨_, rfl, rfl⟩
    | backend reason => exact .inl ⟨_, rfl, rfl⟩

/-- Looking rules up leaves the store alone. -/
theorem serve_find_store (w : Circumstances) (s : RuleStore) (q : Selection) :
    (w.serve s (.find q)).2 = s := by
  obtain ⟨reason, -, hserve⟩ | ⟨-, hserve⟩ := w.serve_cases s (.find q) <;> rw [hserve]
  rfl

theorem serve_get_store (w : Circumstances) (s : RuleStore) (id : String) :
    (w.serve s (.get id)).2 = s := by
  obtain ⟨reason, -, hserve⟩ | ⟨-, hserve⟩ := w.serve_cases s (.get id) <;> rw [hserve]
  rw [RuleStore.serve]
  split <;> rfl

theorem get?_of_serve_get {id : String} {r : Rule} (h : (w.serve s (.get id)).1 = .ok r) :
    s.get? id = some r := by
  have hserve := serve_of_ok (w := w) (Prod.ext h (serve_get_store w s id))
  rw [RuleStore.serve] at hserve
  split at hserve
  · next hget =>
    cases hserve
    exact hget
  · cases hserve

end Script

/-- **An operation does what it is for or leaves the store alone**, whatever the circumstances. -/
theorem Operation.commits (op : Operation) (w : Script.Circumstances) (s : RuleStore) :
    op.script.Commits w s (op.Does s) := by
  cases op with
  | create id r now =>
    cases h : r.validate with
    | error e =>
      rw [create_script_of_error h]
      exact Script.commits_fail _
    | ok v =>
      rw [create_script_of_ok h]
      refine Script.commits_call (Script.serve_find_store ..) ?_
      refine Script.unlessRepeated_cases (fun _ => Script.commits_fail _) ?_ _
      refine Script.commits_checkpoint fun time => Script.commits_keep (fun s' hserve => ?_) time
      exact ⟨_, rfl, rfl, RuleStore.settle_eq_ok_iff.mp hserve⟩
  | update id r now =>
    rw [update_script]
    refine Script.commits_call (Script.serve_get_store ..) ?_
    cases hold : (w.serve s (.get id)).1 with
    | error e => exact Script.commits_fail _
    | ok old =>
      simp only
      cases r.validate with
      | error e => exact Script.commits_fail _
      | ok v =>
        refine Script.commits_call (Script.serve_find_store ..) ?_
        refine Script.unlessRepeated_cases (fun _ => Script.commits_fail _) ?_ _
        refine Script.commits_checkpoint fun time => Script.commits_keep (fun s' hserve => ?_) time
        exact ⟨old, _, Script.get?_of_serve_get hold, rfl, rfl, rfl,
          RuleStore.settle_eq_ok_iff.mp hserve⟩
  | delete id =>
    rw [delete_script]
    refine Script.commits_checkpoint fun time => ?_
    rw [Script.runFrom_call]
    cases hanswer : (w.serve s (.delete id)).1 with
    | error e =>
      rw [Script.store_of_serve_error hanswer]
      exact .inl ⟨_, rfl, rfl⟩
    | ok a =>
      have hserve := Script.serve_of_ok (w := w) (Prod.ext hanswer rfl)
      exact .inr ⟨none, rfl, rfl, RuleStore.settle_eq_ok_iff.mp hserve⟩

/-- Looking for the rule of an id leaves the store alone and finds what is kept under the id. -/
theorem look_run (id : String) (w : Script.Circumstances) (s : RuleStore) :
    ((Request.look id).script.run w s).store = s
      ∧ (w.fault.failure = none → ((Request.look id).script.run w s).outcome
        = ((s.get? id).map some).elim (.error (.store (.notFound id))) .ok) := by
  rw [Request.script, Authoring.get, Script.ask_bind, Script.run, Script.runFrom_call,
    Script.serve_get_store]
  constructor
  · cases (w.serve s (.get id)).1 <;> rfl
  · intro hfault
    obtain ⟨reason, hreason, -⟩ | ⟨-, hserve⟩ := w.serve_cases s (.get id)
    · rw [hreason] at hfault
      cases hfault
    · rw [hserve, RuleStore.serve]
      cases s.get? id <;> rfl

/-! ### Rows of attempts -/

/-- What an attempt keeps to that follows earlier ones on some store. -/
structure Served.AllOrNothing (s : RuleStore) (earlier : List Served) (served : Served) : Prop where
  /-- It starts on the store that the earlier attempts have left. -/
  before : served.before = storeAfter s earlier
  /-- If it fails, nothing has changed. -/
  refused : ∀ e, served.outcome = .error e → served.after = served.before
  /-- No change ends well for a caller who has given up before. -/
  abandoned : ∀ op, served.attempt.request = .change op → served.attempt.abandoned = true →
    ∃ e, served.outcome = .error e
  /-- A create keeps the rule that it answers with, under an id that was free. -/
  created : ∀ id r now stored, served.attempt.request = .change (.create id r now) →
    served.outcome = .ok stored → ∃ rule, stored = some rule ∧ rule.id = id
      ∧ served.before.get? id = none ∧ served.after.get? id = some rule
      ∧ served.before.SameBut id served.after
  /-- An update keeps the rule that it answers with in place of the one that was there, and the
  moment at which that one was created stays. -/
  updated : ∀ id r now stored, served.attempt.request = .change (.update id r now) →
    served.outcome = .ok stored → ∃ old rule, stored = some rule
      ∧ served.before.get? id = some old ∧ served.after.get? id = some rule
      ∧ rule.createdAt = old.createdAt ∧ served.before.SameBut id served.after
  /-- A delete removes the rule of its id and no other. -/
  deleted : ∀ id stored, served.attempt.request = .change (.delete id) →
    served.outcome = .ok stored → stored = none ∧ (∃ old, served.before.get? id = some old)
      ∧ served.after.get? id = none ∧ served.before.SameBut id served.after
  /-- Looking for the rule of an id changes nothing, and answers with the rule that was written
  last, unless the storage fails. -/
  looked : ∀ id, served.attempt.request = .look id → served.after = served.before
    ∧ (served.attempt.circumstances.fault.failure = none → served.outcome
      = ((lastWritten? s earlier id).map some).elim (.error (.store (.notFound id))) .ok)

namespace Attempt

variable (t : Attempt) (s : RuleStore)

/-- A change that is carried out has done what it is for or left the store alone. -/
theorem serve_change {op : Operation} (h : t.request = .change op) :
    (∃ e, (t.serve s).outcome = .error e ∧ (t.serve s).after = s)
      ∨ ∃ stored, (t.serve s).outcome = .ok stored ∧ op.Does s stored (t.serve s).after
        ∧ t.abandoned = false := by
  have hcommits := op.commits t.circumstances s _ (Nat.le_refl _)
  rw [serve, h]
  exact hcommits

/-- A change that ends well has done what it is for, and its caller had not given up before. -/
theorem does_of_serve_ok {op : Operation} (h : t.request = .change op) {stored : Option Rule}
    (hok : (t.serve s).outcome = .ok stored) :
    op.Does s stored (t.serve s).after ∧ t.abandoned = false := by
  obtain ⟨e, herror, -⟩ | ⟨stored', hok', hdoes⟩ := t.serve_change s h
  · rw [herror] at hok
    cases hok
  · rw [hok'] at hok
    cases hok
    exact hdoes

/-- What is kept under an id after an attempt is the attempt's effect on the id, or what was kept
there before. -/
theorem get?_after_serve (id : String) :
    (t.serve s).after.get? id = ((t.serve s).effect? id).getD (s.get? id) := by
  have heffect : (t.serve s).effect? id = match t.request, (t.serve s).outcome with
    | .change _, .ok (some rule) => if rule.id = id then some (some rule) else none
    | .change op, .ok none => if op.id = id then some none else none
    | _, _ => none := rfl
  cases hrequest : t.request with
  | look other =>
    have hsame : (t.serve s).after = s := by
      rw [serve, hrequest]
      exact (look_run other _ s).1
    rw [heffect, hrequest, hsame]
    rfl
  | change op =>
    obtain ⟨e, herror, hsame⟩ | ⟨stored, hok, hdoes, -⟩ := t.serve_change s hrequest
    · rw [heffect, hrequest, herror, hsame]
      rfl
    · rw [heffect, hrequest, hok]
      cases op with
      | create new r now =>
        obtain ⟨rule, rfl, -, hinsert⟩ := hdoes
        rw [(RuleStore.insert_eq_ok_iff.mp hinsert).2.2, RuleStore.get?_put]
        by_cases hid : rule.id = id <;> simp [hid]
      | update new r now =>
        obtain ⟨old, rule, -, rfl, -, -, hupdate⟩ := hdoes
        rw [(RuleStore.update_eq_ok_iff.mp hupdate).2.2, RuleStore.get?_put]
        by_cases hid : rule.id = id <;> simp [hid]
      | delete gone =>
        obtain ⟨rfl, hdelete⟩ := hdoes
        rw [(RuleStore.delete_eq_ok_iff.mp hdelete).2, RuleStore.get?_erase]
        by_cases hid : gone = id
        · simp [hid, Operation.id]
        · simp [hid, Ne.symm hid, Operation.id]

/-- A single attempt keeps to everything, if the history is right about the store it starts on. -/
theorem allOrNothing_serve {initial : RuleStore} {earlier : List Served}
    (hbefore : s = storeAfter initial earlier)
    (hkept : ∀ id, s.get? id = lastWritten? initial earlier id) :
    (t.serve s).AllOrNothing initial earlier where
  before := hbefore
  refused := by
    intro e herror
    cases hrequest : t.request with
    | look id =>
      rw [serve, hrequest]
      exact (look_run id _ s).1
    | change op =>
      obtain ⟨e', -, hsame⟩ | ⟨stored, hok, -⟩ := t.serve_change s hrequest
      · exact hsame
      · rw [hok] at herror
        cases herror
  abandoned := by
    intro op hrequest hup
    obtain ⟨e, herror, -⟩ | ⟨stored, -, -, hnot⟩ := t.serve_change s hrequest
    · exact ⟨e, herror⟩
    · rw [show t.abandoned = true from hup] at hnot
      cases hnot
  created := by
    intro id r now stored hrequest hok
    obtain ⟨⟨rule, rfl, rfl, hinsert⟩, -⟩ := t.does_of_serve_ok s hrequest hok
    obtain ⟨hfree, -, hput⟩ := RuleStore.insert_eq_ok_iff.mp hinsert
    rw [hput, RuleStore.get?_put, if_pos rfl]
    exact ⟨rule, rfl, rfl, hfree, rfl, s.sameBut_put rule⟩
  updated := by
    intro id r now stored hrequest hok
    obtain ⟨⟨old, rule, hold, rfl, rfl, hcreated, hupdate⟩, -⟩ := t.does_of_serve_ok s hrequest hok
    obtain ⟨-, -, hput⟩ := RuleStore.update_eq_ok_iff.mp hupdate
    rw [hput, RuleStore.get?_put, if_pos rfl]
    exact ⟨old, rule, rfl, hold, rfl, hcreated, s.sameBut_put rule⟩
  deleted := by
    intro id stored hrequest hok
    obtain ⟨⟨rfl, hdelete⟩, -⟩ := t.does_of_serve_ok s hrequest hok
    obtain ⟨htaken, herase⟩ := RuleStore.delete_eq_ok_iff.mp hdelete
    rw [herase, RuleStore.get?_erase, if_pos rfl]
    exact ⟨rfl, htaken, rfl, s.sameBut_erase id⟩
  looked := by
    intro id hrequest
    rw [← hkept, serve, show t.request = .look id from hrequest]
    exact look_run id _ s

end Attempt

/-- After one more attempt the history is still right. -/
theorem lastWritten?_cons (t : Attempt) (s : RuleStore) (earlier : List Served) (id : String) :
    lastWritten? s (t.serve s :: earlier) id = lastWritten? (t.serve s).after earlier id := by
  rw [lastWritten?, lastWritten?, t.get?_after_serve s id, List.filterMap_cons]
  cases (t.serve s).effect? id with
  | none => rfl
  | some kept => rw [List.getLast?_cons, Option.getD_some, Option.getD_some]

theorem storeAfter_cons (s : RuleStore) (first : Served) (earlier : List Served) :
    storeAfter s (first :: earlier) = storeAfter first.after earlier := by
  rw [storeAfter, storeAfter, List.getLast?_cons]
  cases earlier.getLast? <;> rfl

/-- What holds behind some attempts holds behind one more in front of them. -/
theorem Served.AllOrNothing.behind {t : Attempt} {s : RuleStore} {earlier : List Served}
    {served : Served} (h : served.AllOrNothing (t.serve s).after earlier) :
    served.AllOrNothing s (t.serve s :: earlier) where
  before := h.before.trans (storeAfter_cons s _ earlier).symm
  refused := h.refused
  abandoned := h.abandoned
  created := h.created
  updated := h.updated
  deleted := h.deleted
  looked := by
    intro id hrequest
    rw [lastWritten?_cons]
    exact h.looked id hrequest

/-- **The authoring service is an all-or-nothing map.** Take any row of attempts on any store, each
under circumstances of its own. Every one of them makes its one change or leaves the store alone,
and finds under an id what the earlier ones wrote there last. -/
theorem allOrNothing_serveAll (s : RuleStore) (attempts : List Attempt) (i : Nat)
    (h : i < (serveAll s attempts).length) :
    (serveAll s attempts)[i].AllOrNothing s ((serveAll s attempts).take i) := by
  induction attempts generalizing s i with
  | nil => cases h
  | cons t rest ih =>
    cases i with
    | zero => exact t.allOrNothing_serve s rfl fun id => rfl
    | succ i => exact (ih (t.serve s).after i (Nat.lt_of_succ_lt_succ h)).behind

/-- The theorem on a create, a duplicate, a create that is given up, an update under another scope,
and a delete, with a look at the rule in front of the delete and behind it. -/
theorem allOrNothing_serveAll_createUpdateDelete :
    let draft (limit : Float) (company : Option String) : RuleDraft :=
      { decision := "declined", isGlobal := company.isNone, companyId := company,
        clauses := [{ field := some "amount", operator := .gt, value := .number limit }] }
    let attempts : List Attempt :=
      [⟨.change (.create "a" (draft 1 none) ⟨1, 0⟩), {}⟩,
        ⟨.change (.create "b" (draft 1 none) ⟨2, 0⟩), {}⟩,
        ⟨.change (.create "c" (draft 2 none) ⟨3, 0⟩), { cancelAt := some 0 }⟩,
        ⟨.change (.update "a" (draft 3 (some "c1")) ⟨4, 0⟩), {}⟩,
        ⟨.look "a", {}⟩, ⟨.change (.delete "a"), {}⟩, ⟨.look "a", {}⟩]
    let log := serveAll .empty attempts
    log.map (·.outcome.isOk) = [true, false, false, true, true, true, false]
      ∧ (∃ h : 4 < log.length, log[4].AllOrNothing .empty (log.take 4)
        ∧ (lastWritten? .empty (log.take 4) "a").map (fun rule => (rule.text, rule.createdAt))
          = some ("amount gt 3", ⟨1, 0⟩))
      ∧ ∃ h : 6 < log.length, log[6].AllOrNothing .empty (log.take 6)
        ∧ lastWritten? .empty (log.take 6) "a" = none := by
  intro draft attempts log
  have houtcomes : log.map (·.outcome.isOk) = [true, false, false, true, true, true, false] := by
    decide +kernel
  have hwritten : (lastWritten? .empty (log.take 4) "a").map (fun rule => (rule.text, rule.createdAt))
      = some ("amount gt 3", ⟨1, 0⟩) := by
    decide +kernel
  have hgone : (lastWritten? .empty (log.take 6) "a").isNone = true := by decide +kernel
  exact ⟨houtcomes, ⟨_, allOrNothing_serveAll .empty attempts 4 (by decide), hwritten⟩, _,
    allOrNothing_serveAll .empty attempts 6 (by decide), Option.isNone_iff_eq_none.mp hgone⟩

end ChargeScreening
