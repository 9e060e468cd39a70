import ChargeScreening.Api.Basic
import ChargeScreening.Proofs.Authoring.Duplicates
import ChargeScreening.Proofs.Engine.Outcome

/-!
# Whom an answer blames

The interface has a status for every error: there are three that blame the request, and three for
callers who give up, for limits that are exceeded and for the service itself. When the stores answer
at once, only the first three are ever given to a well-formed request, whatever the requests before
it have done.

## Main definitions

* `ApiCall`, `ApiRequest.Asks` — what a well-formed request asks for
* `Deployment.after` — the deployment behind some requests
* `BlamesRule` — an outcome that fails only because the rule is refused
* `ApiCall.Answered` — which statuses an answer can have, by what is stored and by the console

## Main results

* `checkedWrite_blamesRule` — creates and updates alike blame nothing but the rule
* `answered_respond` — one request
* `respond_status` — any request behind any others
-/

namespace ChargeScreening

/-! ### Well-formed requests -/

/-- What can be asked for. -/
inductive ApiCall where
  | decide (charge : Charge)
  | create (p : PinnedDraft)
  | get (id : String)
  | update (id : String) (r : RuleDraft)
  | delete (id : String)

namespace ApiCall

/-- The status when it is done. -/
def success : ApiCall → Nat
  | .decide _ => 200
  | .create _ => 201
  | .get _ => 200
  | .update _ _ => 200
  | .delete _ => 204

/-- The statuses when it is refused, other than for a rule that is not there. -/
def refusals : ApiCall → List Nat
  | .decide _ => [400]
  | .create _ => [400, 409]
  | .get _ => []
  | .update _ _ => [400, 409]
  | .delete _ => []

/-- The id of the rule that it is about, if this has to be stored. -/
def target? : ApiCall → Option String
  | .decide _ => none
  | .create _ => none
  | .get id => some id
  | .update id _ => some id
  | .delete id => some id

end ApiCall

/-- The request is well-formed and asks for this: the path is that of a route which knows the
method, an escaped id can be decoded, and the body is what the method takes. -/
inductive ApiRequest.Asks (q : ApiRequest) : ApiCall → Prop
  | decide {charge : Charge} : q.method = .post → Route.ofPath? q.path = some .decide →
      q.decode Charge.ofJson? = .ok charge → q.Asks (.decide charge)
  | create {p : PinnedDraft} : q.method = .post → Route.ofPath? q.path = some .rules →
      q.decode PinnedDraft.ofJson? = .ok p → q.Asks (.create p)
  | get {segment id : String} : q.method = .get ∨ q.method = .head →
      Route.ofPath? q.path = some (.rule segment) → Text.percentDecode? segment = some id →
      q.Asks (.get id)
  | update {segment id : String} {r : RuleDraft} : q.method = .put →
      Route.ofPath? q.path = some (.rule segment) → Text.percentDecode? segment = some id →
      q.decode RuleDraft.ofJson? = .ok r → q.Asks (.update id r)
  | delete {segment id : String} : q.method = .delete →
      Route.ofPath? q.path = some (.rule segment) → Text.percentDecode? segment = some id →
      q.Asks (.delete id)

namespace Deployment

/-- The deployment behind some requests, which come one after the other. -/
def after (d : Deployment) (requests : List (Timestamp × ApiRequest)) : Deployment :=
  requests.foldl (fun d request => (d.respond request.1 request.2).2) d

/-! Operations as scripts on the store. -/

variable {α : Type} (d : Deployment) (w : Script.Circumstances) (now : Timestamp)

theorem author_outcome (script : Script α) :
    (d.author w script).1 = (script.run w d.stores.rules).outcome := by
  rw [author]

theorem author_engine (script : Script α) : (d.author w script).2.engine = d.engine := by
  rw [author, withRules]

theorem create_outcome (p : PinnedDraft) :
    (d.create w now p).1 = ((Authoring.create (p.id.getD (freshRuleId d.issued)) p.draft now).run w
      d.stores.rules).outcome := by
  rw [create, createTimed]

theorem create_engine (p : PinnedDraft) : (d.create w now p).2.engine = d.engine := by
  rw [create, createTimed, withRules]

/-! Answers, by the outcomes of the operations. -/

variable {q : ApiRequest}

theorem respondDecide_of_ok {charge : Charge} (h : q.decode Charge.ofJson? = .ok charge) :
    d.respondDecide q = .ofOutcome 200 (fun s => some s.toJson) (d.decide {} charge) := by
  rw [respondDecide, h]

theorem respondCreate_of_ok {p : PinnedDraft} (h : q.decode PinnedDraft.ofJson? = .ok p) :
    d.respondCreate now q
      = (.ofOutcome 201 (fun r => some r.toJson) (d.create {} now p).1, (d.create {} now p).2) := by
  rw [respondCreate, h]

theorem respondUpdate_of_ok {id : String} {r : RuleDraft}
    (h : q.decode RuleDraft.ofJson? = .ok r) :
    d.respondUpdate now id q = (.ofOutcome 200 (fun r => some r.toJson) (d.update {} now id r).1,
      (d.update {} now id r).2) := by
  rw [respondUpdate, h]

theorem respondGet_eq (id : String) :
    d.respondGet id
      = (.ofOutcome 200 (fun r => some r.toJson) (d.get {} id).1, (d.get {} id).2) := by
  rw [respondGet]

theorem respondDelete_eq (id : String) :
    d.respondDelete id
      = (.ofOutcome 204 (fun _ => none) (d.delete {} id).1, (d.delete {} id).2) := by
  rw [respondDelete]

/-- No answer changes the engine. -/
theorem respondAt_engine (route : Route) (q : ApiRequest) :
    (d.respondAt now route q).2.engine = d.engine := by
  have hupdate (id : String) : (d.respondUpdate now id q).2.engine = d.engine := by
    cases h : q.decode RuleDraft.ofJson? with
    | error e => rw [respondUpdate, h]
    | ok r => rw [d.respondUpdate_of_ok now h, update, author_engine]
  have hdelete (id : String) : (d.respondDelete id).2.engine = d.engine := by
    rw [respondDelete_eq, delete, author_engine]
  have hget (id : String) : (d.respondGet id).2.engine = d.engine := by
    rw [respondGet_eq, get, author_engine]
  cases route with
  | health => rfl
  | decide => rfl
  | rules =>
    cases h : q.decode PinnedDraft.ofJson? with
    | error e => rw [respondAt, respondCreate, h]
    | ok p => rw [respondAt, d.respondCreate_of_ok now h, create_engine]
  | rule segment =>
    rw [respondAt]
    split
    · rfl
    · split
      · exact hupdate _
      · exact hdelete _
      · exact hget _

theorem respond_engine (q : ApiRequest) : (d.respond now q).2.engine = d.engine := by
  rw [respond]
  split
  · rfl
  · split
    · rfl
    · split
      · exact d.respondAt_engine now _ q
      · rfl

theorem after_engine (requests : List (Timestamp × ApiRequest)) :
    (d.after requests).engine = d.engine := by
  induction requests generalizing d with
  | nil => rfl
  | cons request requests ih => exact (ih _).trans (d.respond_engine request.1 request.2)

end Deployment

/-! ### What the operations blame -/

/-- The outcome fails only because the rule is refused. -/
def BlamesRule (outcome : Except ServiceError Rule) : Prop :=
  ∀ e, outcome = .error e → ∃ cause, e = .rule cause

section BlamesRule

variable {s : RuleStore} {r : RuleDraft} {now : Timestamp} {id : String}

theorem blamesRule_ok (rule : Rule) : BlamesRule (.ok rule) :=
  nofun

theorem blamesRule_rule (cause : RuleError) : BlamesRule (.error (.rule cause)) := by
  rintro e ⟨⟩
  exact ⟨cause, rfl⟩

/-- A store refuses a new rule only for a conflict. -/
theorem conflict_of_insert {rule : Rule} {e : StoreError}
    (h : (s.serve (.insert rule)).1 = .error e) : ∃ existing, e = .conflict existing := by
  rw [RuleStore.serve, RuleStore.insert] at h
  split at h
  · cases h
    exact ⟨_, rfl⟩
  · split at h <;> cases h
    exact ⟨_, rfl⟩

/-- A store refuses a rule in the place of a stored one only for a conflict. -/
theorem conflict_of_update {rule : Rule} {e : StoreError} (hstored : s.get? rule.id ≠ none)
    (h : (s.serve (.update rule)).1 = .error e) : ∃ existing, e = .conflict existing := by
  rw [RuleStore.serve, RuleStore.update] at h
  split at h
  · next hnone => exact absurd hnone hstored
  · split at h <;> cases h
    exact ⟨_, rfl⟩

open Script in
/-- Checks, and then one call that stores a rule, blame nothing but the rule, if this is so for the
call: conflicts are made duplicates. -/
theorem checkedWrite_blamesRule {updating : Option String} (rule : ValidatedRule → Rule)
    (c : Rule → RuleCall Unit)
    (hc : ∀ v e, (s.serve (c (rule v))).1 = .error e → ∃ existing, e = .conflict existing)
    (time : Nat) :
    BlamesRule (((Authoring.checked r updating).bind fun v =>
      unlessGivenUp.bind fun _ => (write (c (rule v))).bind fun _ => .done (rule v)).runFrom {} time
        s).outcome := by
  cases hvalid : r.validate with
  | error cause =>
    rw [checked_bind_of_error hvalid]
    exact blamesRule_rule cause
  | ok v =>
    rw [checked_bind_of_ok hvalid, runFrom_call]
    have hfind : Circumstances.serve {} s (.find (.exact v.scope))
        = (.ok (s.find (.exact v.scope)), s) := rfl
    rw [hfind, unlessRepeated]
    cases checkUnique v.text updating (s.find (.exact v.scope)) with
    | error cause => exact blamesRule_rule cause
    | ok _ =>
      have hwrite : Circumstances.serve {} s (c (rule v)) = s.serve (c (rule v)) := rfl
      have hnever (time : Nat) : givenUp none time = false := rfl
      simp only [unlessGivenUp, checkpoint_bind, done_bind, write, call_bind, runFrom, hnever,
        hwrite]
      cases hanswer : (s.serve (c (rule v))).1 with
      | ok _ => exact blamesRule_ok _
      | error e =>
        obtain ⟨existing, rfl⟩ := hc v e hanswer
        exact blamesRule_rule _

namespace Deployment

variable (d : Deployment)

theorem create_blamesRule (now : Timestamp) (p : PinnedDraft) :
    BlamesRule (d.create {} now p).1 := by
  let rule (v : ValidatedRule) : Rule := p.draft.build (p.id.getD (freshRuleId d.issued)) v now
  have hconflict (v : ValidatedRule) (e : StoreError)
      (he : (d.stores.rules.serve (.insert (rule v))).1 = .error e) :
      ∃ existing, e = .conflict existing := conflict_of_insert he
  rw [create_outcome, Authoring.create, Script.bind_eq, Script.run]
  exact checkedWrite_blamesRule rule .insert hconflict _

/-- An update of a stored rule fails only because the new one is refused. -/
theorem update_of_stored {current : Rule} (h : d.stores.rules.get? id = some current) :
    BlamesRule (d.update {} now id r).1 := by
  have hget : Script.Circumstances.serve {} d.stores.rules (.get id)
      = (.ok current, d.stores.rules) := by
    simp only [Script.Circumstances.serve, RuleStore.serve, h]
  let rule (v : ValidatedRule) : Rule := { r.build id v now with createdAt := current.createdAt }
  -- nothing comes between looking the rule up and storing the new one, so that it is still there
  have hconflict (v : ValidatedRule) (e : StoreError)
      (he : (d.stores.rules.serve (.update (rule v))).1 = .error e) :
      ∃ existing, e = .conflict existing := by
    have hstored : d.stores.rules.get? (rule v).id ≠ none := by
      intro hnone
      cases h.symm.trans hnone
    exact conflict_of_update hstored he
  rw [update, author_outcome, Authoring.update, Script.bind_eq, Script.ask_bind, Script.run,
    Script.runFrom_call, hget]
  exact checkedWrite_blamesRule rule .update hconflict _

/-- An update of a rule that is not stored fails, whatever is to be stored in its place. -/
theorem update_of_absent (h : d.stores.rules.get? id = none) :
    (d.update {} now id r).1 = .error (.store (.notFound id)) := by
  have hget : Script.Circumstances.serve {} d.stores.rules (.get id)
      = (.error (.notFound id), d.stores.rules) := by
    simp only [Script.Circumstances.serve, RuleStore.serve, h]
  rw [update, author_outcome, Authoring.update, Script.bind_eq, Script.ask_bind, Script.run,
    Script.runFrom_call, hget]
  rfl

theorem get_outcome (id : String) :
    (d.get {} id).1 = (d.stores.rules.get? id).elim (.error (.store (.notFound id))) .ok := by
  rw [get, author_outcome, Authoring.get, Script.ask, Script.run, Script.runFrom_call]
  simp only [Script.Circumstances.serve, RuleStore.serve]
  cases d.stores.rules.get? id <;> rfl

theorem delete_outcome (id : String) :
    (d.delete {} id).1
      = (d.stores.rules.get? id).elim (.error (.store (.notFound id))) fun _ => .ok () := by
  rw [delete, author_outcome, Authoring.delete, Script.bind_eq, Script.unlessGivenUp,
    Script.checkpoint_bind, Script.done_bind, Script.ask, Script.run, Script.runFrom,
    Script.runFrom_call]
  simp only [Script.Circumstances.serve, RuleStore.serve, RuleStore.delete]
  cases d.stores.rules.get? id <;> rfl

/-- A decision fails only for a console that names a component twice. -/
theorem decide_outcome (charge : Charge) :
    if (d.engine.console charge).components.Nodup then
      ∃ screening, d.decide {} charge = .ok screening
    else ∃ component, d.decide {} charge = .error (.repeatedComponent component) := by
  rw [decide]
  split
  · next hnodup =>
    exact Engine.exists_decide_of_undisturbed (undisturbed_default _) (check_eq_ok_iff.mpr hnodup)
  · next hrepeated =>
    rw [← check_eq_ok_iff, Console.check] at hrepeated
    rw [Engine.decide_eq, Console.check]
    cases hcomponent : (d.engine.console charge).repeated? with
    | some component => exact ⟨component, rfl⟩
    | none =>
      rw [hcomponent] at hrepeated
      exact absurd rfl hrepeated

end Deployment

end BlamesRule

/-! ### Statuses -/

namespace ApiCall

variable {d : Deployment} {call : ApiCall} {status : Nat}

/-- The statuses of a call that is about a stored rule or about none. -/
def Usual (call : ApiCall) (status : Nat) : Prop :=
  status = call.success ∨ status ∈ call.refusals

theorem Usual.ne_notFound (h : call.Usual status) : status ≠ 404 := by
  rintro rfl
  cases call <;> simp [Usual, success, refusals] at h

theorem Usual.blameless (h : call.Usual status) :
    status = call.success ∨ status = 400 ∨ status = 409 := by
  refine h.imp_right fun hrefused => ?_
  cases call with
  | decide charge => exact .inl (List.mem_singleton.mp hrefused)
  | create p | update id r => simpa [refusals] using hrefused
  | get id | delete id => cases hrefused

/-- Which statuses the answer to a call has, by what is stored and by the console. -/
structure Answered (d : Deployment) (call : ApiCall) (status : Nat) : Prop where
  /-- What is not found is the rule that it is about, and then this is what is said of it. -/
  notFound : status = 404 ↔ ∃ id, call.target? = some id ∧ d.stores.rules.get? id = none
  usual : status ≠ 404 → call.Usual status
  /-- A decision is refused because of its console, and for nothing else. -/
  console : ∀ charge, call = .decide charge →
    if (d.engine.console charge).components.Nodup then status = 200 else status = 400

theorem answered_decide {charge : Charge}
    (h : if (d.engine.console charge).components.Nodup then status = 200 else status = 400) :
    (decide charge).Answered d status := by
  have husual : (decide charge).Usual status := by
    split at h
    · exact .inl h
    · exact .inr (List.mem_singleton.mpr h)
  refine ⟨iff_of_false husual.ne_notFound nofun, fun _ => husual, fun charge' heq => ?_⟩
  cases heq
  exact h

theorem answered_create {p : PinnedDraft} (h : (create p).Usual status) :
    (create p).Answered d status :=
  ⟨iff_of_false h.ne_notFound nofun, fun _ => h, fun _ heq => absurd heq nofun⟩

theorem answered_of_target {id : String} (htarget : call.target? = some id)
    (h : if (d.stores.rules.get? id).isSome then call.Usual status else status = 404) :
    call.Answered d status := by
  have hdecide (charge : Charge) : call ≠ .decide charge := by
    rintro rfl
    cases htarget
  refine ⟨?_, fun hfound => ?_, fun charge heq => absurd heq (hdecide charge)⟩
  · rw [htarget]
    split at h
    · next hstored =>
      refine iff_of_false h.ne_notFound ?_
      rintro ⟨_, ⟨⟩, hnone⟩
      rw [hnone] at hstored
      cases hstored
    · next hstored =>
      rw [Option.not_isSome_iff_eq_none] at hstored
      exact iff_of_true h ⟨id, rfl, hstored⟩
  · split at h
    · exact h
    · exact absurd h hfound

end ApiCall

/-- Duplicates are conflicts, and any other refused rule is a bad request. -/
theorem status_of_blamesRule {outcome : Except ServiceError Rule} (h : BlamesRule outcome)
    (success : Nat) (body : Rule → Option Json) :
    let status := (ApiResponse.ofOutcome success body outcome).status
    status = success ∨ status ∈ [400, 409] := by
  cases outcome with
  | ok rule => exact .inl rfl
  | error e =>
    obtain ⟨cause, rfl⟩ := h e rfl
    refine .inr ?_
    cases cause with
    | duplicateRule existing => exact List.mem_cons_of_mem _ (List.mem_cons_self ..)
    | _ => exact List.mem_cons_self ..

theorem Deployment.respond_status_of_route (d : Deployment) (now : Timestamp) {q : ApiRequest}
    {route : Route} (hroute : Route.ofPath? q.path = some route)
    (hallows : route.allows q.method = true) :
    (d.respond now q).1.status = (d.respondAt now route q).1.status := by
  have hmethod : q.method ≠ .options := by
    intro hoptions
    rw [hoptions] at hallows
    cases route <;> cases hallows
  rw [respond, if_neg hmethod, hroute]
  simp only [hallows, if_true]
  split <;> rfl

/-- What a well-formed request is answered, in any deployment. -/
theorem answered_respond (d : Deployment) (now : Timestamp) {q : ApiRequest} {call : ApiCall}
    (h : q.Asks call) : call.Answered d (d.respond now q).1.status := by
  cases h with
  | @decide charge hmethod hroute hbody =>
    rw [d.respond_status_of_route now hroute (by rw [hmethod]; rfl), Deployment.respondAt,
      d.respondDecide_of_ok hbody]
    apply ApiCall.answered_decide
    have hdecide := d.decide_outcome charge
    split at hdecide
    · next hnodup =>
      obtain ⟨screening, hscreening⟩ := hdecide
      rw [if_pos hnodup, hscreening]
      rfl
    · next hrepeated =>
      obtain ⟨component, hcomponent⟩ := hdecide
      rw [if_neg hrepeated, hcomponent]
      rfl
  | @create p hmethod hroute hbody =>
    rw [d.respond_status_of_route now hroute (by rw [hmethod]; rfl), Deployment.respondAt,
      d.respondCreate_of_ok now hbody]
    dsimp only
    exact ApiCall.answered_create (status_of_blamesRule (d.create_blamesRule now p) 201 _)
  | @get segment id hmethod hroute hid =>
    have hallows : (Route.rule segment).allows q.method = true := by
      rcases hmethod with hmethod | hmethod <;> rw [hmethod] <;> rfl
    have hrespond : d.respondAt now (.rule segment) q = d.respondGet id := by
      rw [Deployment.respondAt, hid]
      rcases hmethod with hmethod | hmethod <;> rw [hmethod]
    rw [d.respond_status_of_route now hroute hallows, hrespond, d.respondGet_eq, d.get_outcome]
    apply ApiCall.answered_of_target rfl
    cases d.stores.rules.get? id with
    | none => rfl
    | some current => exact .inl rfl
  | @update segment id r hmethod hroute hid hbody =>
    have hrespond : d.respondAt now (.rule segment) q = d.respondUpdate now id q := by
      rw [Deployment.respondAt, hid, hmethod]
    rw [d.respond_status_of_route now hroute (by rw [hmethod]; rfl), hrespond,
      d.respondUpdate_of_ok now hbody]
    apply ApiCall.answered_of_target rfl
    cases hstored : d.stores.rules.get? id with
    | none =>
      rw [d.update_of_absent hstored]
      rfl
    | some current => exact status_of_blamesRule (d.update_of_stored hstored) 200 _
  | @delete segment id hmethod hroute hid =>
    have hrespond : d.respondAt now (.rule segment) q = d.respondDelete id := by
      rw [Deployment.respondAt, hid, hmethod]
    rw [d.respond_status_of_route now hroute (by rw [hmethod]; rfl), hrespond, d.respondDelete_eq,
      d.delete_outcome]
    apply ApiCall.answered_of_target rfl
    cases d.stores.rules.get? id with
    | none => rfl
    | some current => exact .inl rfl

/-- **An answer never blames the service.** Whatever requests came before, a well-formed one is done
or is turned down for a fault of its own. A decision is so just for a console that names a component
twice. What is about a stored rule is not found just when there is none, whatever the body says, and
nothing is ever missing for a create. -/
theorem respond_status (d : Deployment) (earlier : List (Timestamp × ApiRequest))
    (now : Timestamp) {q : ApiRequest} {call : ApiCall} (h : q.Asks call) :
    let reached := d.after earlier
    let status := (reached.respond now q).1.status
    (status = call.success ∨ status = 400 ∨ status = 404 ∨ status = 409)
      ∧ (∀ charge, call = .decide charge →
        if (d.engine.console charge).components.Nodup then status = 200 else status = 400)
      ∧ (∀ id, call.target? = some id → (status = 404 ↔ reached.stores.rules.get? id = none))
      ∧ ∀ p, call = .create p → status ≠ 404 := by
  intro reached status
  have hanswered : call.Answered reached status := answered_respond reached now h
  have hengine : reached.engine = d.engine := d.after_engine earlier
  refine ⟨?_, fun charge heq => ?_, fun id htarget => ?_, fun p heq => ?_⟩
  · by_cases hfound : status = 404
    · exact .inr (.inr (.inl hfound))
    · exact (hanswered.usual hfound).blameless.imp_right fun hrefused => hrefused.imp_right .inr
  · have hconsole := hanswered.console charge heq
    rwa [hengine] at hconsole
  · rw [hanswered.notFound, htarget]
    simp
  · rw [Ne, hanswered.notFound, heq]
    rintro ⟨id, ⟨⟩, -⟩

/-- The theorem on a change to a rule that is not stored, after a request to remove it. The id holds
a blank in its percent form, and a query follows it. The body would not be accepted as a rule, but
the answer is that there is none. -/
theorem respond_status_absentRule :
    let now : Timestamp := ⟨0, 0⟩
    let removal : ApiRequest := { method := .delete, path := "/v1/rules/r%201" }
    let change : ApiRequest :=
      { method := .put, path := "/v1/rules/r%201?x",
        body := "\x7b\"decision\":\"maybe\",\"clauses\":[]\x7d" }
    let reached := ({} : Deployment).after [(now, removal)]
    ∃ r, change.Asks (.update "r 1" r) ∧ r.validate.toOption.isNone = true
      ∧ (reached.respond now change).1.status = 404 := by
  intro now removal change reached
  have hread : (change.decode RuleDraft.ofJson?).map (fun r => r.validate.toOption.isNone)
      = .ok true := by
    decide +kernel
  cases hbody : change.decode RuleDraft.ofJson? with
  | error e =>
    rw [hbody] at hread
    cases hread
  | ok r =>
    rw [hbody] at hread
    have hroute : Route.ofPath? change.path = some (.rule "r%201") := by decide +kernel
    have hid : Text.percentDecode? "r%201" = some "r 1" := by decide +kernel
    have hasks : change.Asks (.update "r 1" r) := .update rfl hroute hid hbody
    have hstatus := (respond_status {} [(now, removal)] now hasks).2.2.1 "r 1" rfl
    exact ⟨r, hasks, Except.ok.inj hread, hstatus.mpr (by decide +kernel)⟩

end ChargeScreening
