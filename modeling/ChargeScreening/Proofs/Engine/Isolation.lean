import ChargeScreening.Proofs.Engine.Outcome
import ChargeScreening.Proofs.Rule.Belonging
import Mathlib.Data.List.Sort

/-!
# What a charge sees of the stores

Rules are picked out by the queries of the components, list entries by the search keys of the
charge and then by their scopes. In both ways nothing gets through but what applies to the charge.
So the records of other companies and other families do not exist for it, whatever they say.

## Main definitions

* `Stores.SameFor` — two states of the stores that agree on what applies to a charge
* `Stores.only` — the stores without what does not apply

## Main results

* `SameFor.fetch?_eq` — for each component the same is fetched
* `decide_eq_of_sameFor` — what applies to a charge settles its decision
-/

namespace ChargeScreening

/-! ### Queries -/

/-- Stores with the same rules of those that a query selects answer it in the same way. -/
theorem RuleStore.find_congr {s t : RuleStore} {q : Selection}
    (h : ∀ r, q.selects r = true → (r ∈ s.rules ↔ r ∈ t.rules)) : s.find q = t.find q := by
  have : Std.Irrefl fun r t : Rule => r.id < t.id := ⟨fun r => String.lt_irrefl r.id⟩
  have : Std.Antisymm fun r t : Rule => r.id < t.id :=
    ⟨fun r t hrt htr => absurd (String.lt_trans hrt htr) (String.lt_irrefl r.id)⟩
  refine (s.ordered.filter _).eq_of_mem_iff (t.ordered.filter _) fun r => ?_
  rw [find, List.mem_filter, List.mem_filter]
  exact and_congr_left fun hselects => h r hselects

/-- What is left of the entries that are found is the same if it was the same before. -/
theorem ListStore.filter_find_congr {s t : ListStore} {kind : ListKind} {p : ListEntry → Bool}
    (h : (s.entries.filter fun e => e.kind == kind && p e)
      = t.entries.filter fun e => e.kind == kind && p e) (keys : SearchKeys) :
    (s.find kind keys).filter p = (t.find kind keys).filter p := by
  have hfind (s : ListStore) : (s.find kind keys).filter p
      = (s.entries.filter fun e => e.kind == kind && p e).filter keys.covers := by
    rw [find, List.filter_filter, List.filter_filter]
    congr 1
    funext e
    rw [Bool.and_left_comm, Bool.and_comm (p e), ← Bool.and_left_comm]
  rw [hfind, hfind, h]

/-! ### What applies to a charge -/

namespace Stores

/-- Two states of the stores agree on the groupings of a charge, on the rules that apply to it, and
on the entries of each list that apply to it and their order. -/
structure SameFor (charge : Charge) (s t : Stores) : Prop where
  membership : s.families.resolve charge.companyId = t.families.resolve charge.companyId
  rules : ∀ r : Rule, (s.groupings charge).applies r.scope = true →
    (r ∈ s.rules.rules ↔ r ∈ t.rules.rules)
  entries : ∀ kind : ListKind,
    (s.lists.entries.filter fun e => e.kind == kind && (s.groupings charge).applies e.scope)
      = t.lists.entries.filter fun e => e.kind == kind && (s.groupings charge).applies e.scope

/-- The stores without what does not apply to a charge of some groupings. -/
def only (s : Stores) (scope : Groupings) : Stores where
  rules := ⟨s.rules.rules.filter fun r => scope.applies r.scope, s.rules.ordered.filter _⟩
  lists := ⟨s.lists.entries.filter fun e => scope.applies e.scope⟩
  families := s.families

variable {charge : Charge} {s t : Stores}

theorem sameFor_only (charge : Charge) (s : Stores) :
    s.SameFor charge (s.only (s.groupings charge)) where
  membership := rfl
  rules r happlies := by rw [only, List.mem_filter, happlies, and_iff_left rfl]
  entries kind := by
    rw [only, List.filter_filter]
    congr 1
    funext e
    rw [Bool.and_assoc, Bool.and_self]

/-- For each component the same is fetched: its query selects only rules that apply, and the
entries that are found are left out unless they apply. -/
theorem SameFor.fetch?_eq (h : s.SameFor charge t) (keys : SearchKeys) (c : Component) :
    s.fetch? (s.groupings charge) keys c = t.fetch? (s.groupings charge) keys c := by
  rw [fetch?, fetch?]
  cases hkind : c.listKind? with
  | some kind => simp only [ListStore.filter_find_congr (h.entries kind)]
  | none =>
    cases hquery : Selection.forComponent? c (s.groupings charge) with
    | none => rfl
    | some q =>
      have hfind : s.rules.find q = t.rules.find q :=
        RuleStore.find_congr fun r hr => h.rules r (finds_iff.mp ⟨q, hquery, hr⟩).2
      simp only [Option.map_some, hfind]

end Stores

/-! ### Decisions -/

namespace Engine

variable {e : Engine} {s t : Stores} {w : Circumstances} {scope : Groupings} {keys : SearchKeys}

/-- A fetch asks the stores for the candidates of its component and for nothing else. -/
theorem fetch_congr (h : ∀ c, s.fetch? scope keys c = t.fetch? scope keys c) :
    e.fetch s w scope keys = e.fetch t w scope keys := by
  funext start c
  rw [fetch, fetch, h]

theorem fetchInTurn_congr (h : ∀ c, s.fetch? scope keys c = t.fetch? scope keys c) (start : Nat)
    (components : List Component) :
    e.fetchInTurn s w scope keys start components
      = e.fetchInTurn t w scope keys start components := by
  induction components generalizing start with
  | nil => rfl
  | cons c rest ih => simp only [fetchInTurn, fetch_congr h, ih]

theorem fetchAll_congr (h : ∀ c, s.fetch? scope keys c = t.fetch? scope keys c) (start : Nat)
    (components : List Component) :
    e.fetchAll s w scope keys start components = e.fetchAll t w scope keys start components := by
  rw [fetchAll]
  split
  · rw [fetchTogether, fetchTogether, fetch_congr h]
  · exact fetchInTurn_congr h start components

/-- Stores that agree on what applies to a charge decide it in the same way, also when calls fail
or are slow and when the caller gives up. -/
theorem decide_congr (h : s.SameFor charge t) : e.decide s w charge = e.decide t w charge := by
  have hresolve : e.resolve s w charge = e.resolve t w charge := by
    rw [resolve, resolve, h.membership]
  rw [decide_eq, decide_eq, ← hresolve]
  cases hmembership : (e.resolve s w charge).value with
  | error err => rfl
  | ok membership =>
    obtain ⟨-, -, -, rfl⟩ := await_ok_iff.mp hmembership
    have hall := fetchAll_congr (e := e) (w := w) (h.fetch?_eq (searchKeys charge.attributes))
      (e.resolve s w charge).time (e.console charge).components
    simp only [Stores.groupings] at hall
    simp only [bind, Except.bind, hall]

end Engine

/-- **What applies to a charge settles its decision.** Two states of the stores that agree on the
records that apply to the charge lead to the same answer under all circumstances, and when nothing
goes wrong it is a verdict. So it makes no difference if all other records are left out. -/
theorem decide_eq_of_sameFor (e : Engine) {s t : Stores} (w : Engine.Circumstances)
    (charge : Charge) (h : s.SameFor charge t) :
    e.decide s w charge = e.decide t w charge
      ∧ ((e.console charge).components.Nodup → Undisturbed w e.settings.fetchTimeoutMs →
        ∃ r, e.decide s w charge = .ok r ∧ e.decide t w charge = .ok r)
      ∧ e.decide s w charge = e.decide (s.only (s.groupings charge)) w charge := by
  have hsame : e.decide s w charge = e.decide t w charge := Engine.decide_congr h
  refine ⟨hsame, fun hconsole hw => ?_, Engine.decide_congr (s.sameFor_only charge)⟩
  obtain ⟨r, hr⟩ := Engine.exists_decide_of_undisturbed (s := s) hw (check_eq_ok_iff.mpr hconsole)
  exact ⟨r, hr, hsame ▸ hr⟩

/-- The theorem on a rule of a company. Next to it come a rule of another company and a list entry
that names the company, but only for a family that the company does not belong to. -/
theorem decide_eq_of_sameFor_foreignRecords :
    let now : Timestamp := { seconds := 0 }
    let own : Rule := .ofText "b" (.company "c1") .declined "amount gt 1" now
    let foreign : Rule := .ofText "a" (.company "c2") .accepted "amount gt 1" now
    let entry : ListEntry :=
      { id := "l", kind := .white, field := "company_id", value := "c1", decision := .accepted,
        scope := .familyMcc "f" }
    let s : Stores := { rules := { rules := [own], ordered := List.pairwise_singleton .. } }
    let t : Stores :=
      { rules := { rules := [foreign, own], ordered := by decide }, lists := ⟨[entry]⟩ }
    let charge : Charge := { companyId := "c1", amount := 5 }
    (s.SameFor charge t ∧ (Engine.console {} charge).components.Nodup ∧ Undisturbed {} 2000)
      ∧ ∃ r, Engine.decide {} s {} charge = .ok r ∧ Engine.decide {} t {} charge = .ok r
        ∧ r.verdict.decision = .declined := by
  intro now own foreign entry s t charge
  have hsame : s.SameFor charge t := by
    refine ⟨rfl, fun r happlies => ?_, fun kind => ?_⟩
    · constructor
      · exact List.mem_cons_of_mem _
      · intro hr
        rcases List.mem_cons.mp hr with rfl | hr
        · cases happlies
        · exact hr
    · cases kind <;> rfl
  have hconsole : (Engine.console {} charge).components.Nodup := by decide
  have hw : Undisturbed {} 2000 := undisturbed_default 2000
  obtain ⟨r, hs, ht⟩ := (decide_eq_of_sameFor {} {} charge hsame).2.1 hconsole hw
  have hdecision : (Engine.decide {} s {} charge).map (·.verdict.decision) = .ok .declined := by
    decide +kernel
  rw [hs] at hdecision
  exact ⟨⟨hsame, hconsole, hw⟩, r, hs, ht, Except.ok.inj hdecision⟩

end ChargeScreening
