import ChargeScreening.Authoring.Script
import ChargeScreening.Rule.Validation
import Mathlib.Tactic.ByContra

/-!
# What the store of rules keeps

A call changes the store in one of three ways: it keeps a new rule, replaces one, or removes one.
Both of the first two ask for a rule that repeats no other, so no two stored rules ever have the
same scope and text.

## Main definitions

* `RuleStore.NoRepeats` — no two stored rules have the same scope and text
* `RuleStore.Lacks` — no stored rule has this scope and text
* `RuleCall.bringsIn` — whether a call can make an id appear

## Main results

* `insert_eq_ok_iff`, `update_eq_ok_iff`, `delete_eq_ok_iff` — when a change is made, and which
* `checkUnique_of_lacks`, `checkUnique_of_mem` — what the check for duplicates finds
* `NoRepeats.serve` — no call makes two rules repeat each other
* `get?_serve_eq_none` — an absent id stays absent under every call that does not bring it in
-/

namespace ChargeScreening

namespace RuleStore

variable {s s' : RuleStore} {r t : Rule} {id : String}

/-! ### The changes -/

theorem rival?_eq_none_iff :
    s.rival? r = none ↔ ∀ t ∈ s.rules, t.scope = r.scope → t.text = r.text → t.id = r.id := by
  rw [rival?, List.find?_eq_none]
  constructor
  · intro h t ht hscope htext
    by_contra hid
    exact h t ht (by simp [hid, hscope, htext])
  · intro h t ht hrival
    simp only [Bool.and_eq_true, bne_iff_ne, beq_iff_eq] at hrival
    obtain ⟨⟨hid, hscope⟩, htext⟩ := hrival
    exact hid (h t ht hscope htext)

theorem spec_of_rival? (h : s.rival? r = some t) :
    t ∈ s.rules ∧ t.id ≠ r.id ∧ t.scope = r.scope ∧ t.text = r.text := by
  have hrival := List.find?_some h
  simp only [Bool.and_eq_true, bne_iff_ne, beq_iff_eq] at hrival
  exact ⟨List.mem_of_find?_eq_some h, hrival.1.1, hrival.1.2, hrival.2⟩

/-- A rule is kept just if its id is free and it repeats no rule. -/
theorem insert_eq_ok_iff :
    s.insert r = .ok s' ↔ s.get? r.id = none ∧ s.rival? r = none ∧ s' = s.put r := by
  rw [insert]
  constructor
  · intro h
    split at h
    · cases h
    · next hfree =>
      split at h
      · cases h
      · next hnone =>
        cases h
        exact ⟨hfree, hnone, rfl⟩
  · rintro ⟨hfree, hnone, rfl⟩
    rw [hfree, hnone]

/-- A rule is replaced just if its id is taken and the new rule repeats no other. -/
theorem update_eq_ok_iff :
    s.update r = .ok s' ↔ (∃ old, s.get? r.id = some old) ∧ s.rival? r = none ∧ s' = s.put r := by
  rw [update]
  constructor
  · intro h
    split at h
    · cases h
    · next old htaken =>
      split at h
      · cases h
      · next hnone =>
        cases h
        exact ⟨⟨old, htaken⟩, hnone, rfl⟩
  · rintro ⟨⟨old, htaken⟩, hnone, rfl⟩
    rw [htaken, hnone]

/-- A rule is removed just if its id is taken. -/
theorem delete_eq_ok_iff :
    s.delete id = .ok s' ↔ (∃ old, s.get? id = some old) ∧ s' = s.erase id := by
  rw [delete]
  constructor
  · intro h
    split at h
    · cases h
    · next old htaken =>
      cases h
      exact ⟨⟨old, htaken⟩, rfl⟩
  · rintro ⟨⟨old, htaken⟩, rfl⟩
    rw [htaken]

theorem mem_put_iff : t ∈ (s.put r).rules ↔ t = r ∨ t ∈ s.rules ∧ t.id ≠ r.id := by
  rw [mem_rules_iff, get?_put, mem_rules_iff]
  by_cases h : r.id = t.id
  · rw [if_pos h]
    constructor
    · intro heq
      exact .inl (Option.some.inj heq).symm
    · rintro (rfl | ⟨-, hne⟩)
      · rfl
      · exact absurd h.symm hne
  · rw [if_neg h]
    constructor
    · intro hget
      exact .inr ⟨hget, Ne.symm h⟩
    · rintro (rfl | ⟨hget, -⟩)
      · exact absurd rfl h
      · exact hget

theorem mem_erase_iff : t ∈ (s.erase id).rules ↔ t ∈ s.rules ∧ t.id ≠ id := by
  rw [erase, List.mem_filter, bne_iff_ne]

/-! ### No repeated rules -/

/-- No two stored rules have the same scope and text. -/
def NoRepeats (s : RuleStore) : Prop :=
  ∀ r ∈ s.rules, ∀ t ∈ s.rules, r.scope = t.scope → r.text = t.text → r = t

theorem noRepeats_empty : empty.NoRepeats := by
  intro r hr
  cases hr

theorem NoRepeats.put (h : s.NoRepeats) (hr : s.rival? r = none) : (s.put r).NoRepeats := by
  rw [rival?_eq_none_iff] at hr
  intro t ht u hu hscope htext
  rcases mem_put_iff.mp ht with rfl | ⟨ht, hne⟩
  · rcases mem_put_iff.mp hu with rfl | ⟨hu, hne'⟩
    · rfl
    · exact absurd (hr u hu hscope.symm htext.symm) hne'
  · rcases mem_put_iff.mp hu with heq | ⟨hu, -⟩
    · rw [heq] at hscope htext
      exact absurd (hr t ht hscope htext) hne
    · exact h t ht u hu hscope htext

theorem NoRepeats.erase (h : s.NoRepeats) (id : String) : (s.erase id).NoRepeats := by
  intro t ht u hu
  exact h t (mem_erase_iff.mp ht).1 u (mem_erase_iff.mp hu).1

/-! ### Rules of one scope and text -/

/-- No stored rule has this scope and text. -/
def Lacks (s : RuleStore) (scope : Scope) (text : String) : Prop :=
  ∀ r ∈ s.rules, r.scope = scope → r.text ≠ text

theorem mem_find_exact_iff {scope : Scope} :
    t ∈ s.find (.exact scope) ↔ t ∈ s.rules ∧ t.scope = scope := by
  rw [find, List.mem_filter, Selection.selects, beq_iff_eq]

theorem rival?_of_lacks (h : s.Lacks r.scope r.text) : s.rival? r = none := by
  rw [rival?_eq_none_iff]
  intro t ht hscope htext
  exact absurd htext (h t ht hscope)

/-- A rule of the same scope and text is the rival, there being only one. -/
theorem rival?_of_mem (hs : s.NoRepeats) (ht : t ∈ s.rules) (hid : t.id ≠ r.id)
    (hscope : t.scope = r.scope) (htext : t.text = r.text) : s.rival? r = some t := by
  cases h : s.rival? r with
  | none => exact absurd (rival?_eq_none_iff.mp h t ht hscope htext) hid
  | some u =>
    obtain ⟨hu, -, hscope', htext'⟩ := spec_of_rival? h
    rw [hs t ht u hu (hscope.trans hscope'.symm) (htext.trans htext'.symm)]

theorem checkUnique_of_lacks {scope : Scope} {text : String} (h : s.Lacks scope text) :
    checkUnique text none (s.find (.exact scope)) = .ok () := by
  rw [checkUnique]
  split
  · next t hfound =>
    have htext := List.find?_some hfound
    have ht := (List.mem_filter.mp (List.mem_of_find?_eq_some hfound)).1
    obtain ⟨hmem, hscope⟩ := mem_find_exact_iff.mp ht
    exact absurd (eq_of_beq htext) (h t hmem hscope)
  · rfl

/-- The check finds the rule of a scope and text, there being only one. -/
theorem checkUnique_of_mem (hs : s.NoRepeats) (ht : t ∈ s.rules) :
    checkUnique t.text none (s.find (.exact t.scope)) = .error (.duplicateRule t.id) := by
  have hfound : t ∈ (s.find (.exact t.scope)).filter fun r => none ≠ some r.id :=
    List.mem_filter.mpr ⟨mem_find_exact_iff.mpr ⟨ht, rfl⟩, rfl⟩
  rw [checkUnique]
  split
  · next u hu =>
    have htext := List.find?_some hu
    have hmem := (List.mem_filter.mp (List.mem_of_find?_eq_some hu)).1
    obtain ⟨humem, hscope⟩ := mem_find_exact_iff.mp hmem
    rw [hs u humem t ht hscope (eq_of_beq htext)]
  · next hnone =>
    exact absurd (beq_self_eq_true t.text) (List.find?_eq_none.mp hnone t hfound)

theorem Lacks.put {scope : Scope} {text : String} (h : s.Lacks scope text)
    (hr : r.scope = scope → r.text ≠ text) : (s.put r).Lacks scope text := by
  intro t ht
  rcases mem_put_iff.mp ht with rfl | ⟨ht, -⟩
  · exact hr
  · exact h t ht

end RuleStore

/-! ### Calls -/

/-- Whether a call can make an id appear. -/
def RuleCall.bringsIn {α : Type} (id : String) : RuleCall α → Bool
  | .insert r => r.id == id
  | _ => false

namespace RuleStore

variable {α : Type}

theorem settle_cases (s : RuleStore) (change : Except StoreError RuleStore) :
    (s.settle change).2 = s ∨ change = .ok (s.settle change).2 := by
  cases change with
  | ok s' => exact .inr rfl
  | error e => exact .inl rfl

/-- What a call does to the store: nothing, or it keeps a rule that repeats no other, or it removes
an id. A rule under an id that was free comes from a call that brings the id in. -/
theorem serve_cases (s : RuleStore) (c : RuleCall α) :
    (s.serve c).2 = s
      ∨ (∃ r, s.rival? r = none ∧ (s.serve c).2 = s.put r
          ∧ (s.get? r.id = none → c.bringsIn r.id = true))
      ∨ ∃ id, (s.serve c).2 = s.erase id := by
  cases c with
  | find q => exact .inl rfl
  | get id =>
    refine .inl ?_
    rw [serve]
    split
    · rfl
    · rfl
  | insert r =>
    rw [serve]
    rcases s.settle_cases (s.insert r) with hsame | hok
    · exact .inl hsame
    · obtain ⟨-, hnone, hput⟩ := insert_eq_ok_iff.mp hok
      exact .inr (.inl ⟨r, hnone, hput, fun _ => beq_self_eq_true r.id⟩)
  | update r =>
    rw [serve]
    rcases s.settle_cases (s.update r) with hsame | hok
    · exact .inl hsame
    · obtain ⟨⟨old, htaken⟩, hnone, hput⟩ := update_eq_ok_iff.mp hok
      refine .inr (.inl ⟨r, hnone, hput, fun hfree => ?_⟩)
      rw [htaken] at hfree
      cases hfree
  | delete id =>
    rw [serve]
    rcases s.settle_cases (s.delete id) with hsame | hok
    · exact .inl hsame
    · exact .inr (.inr ⟨id, (delete_eq_ok_iff.mp hok).2⟩)

/-- No call makes two stored rules repeat each other. -/
theorem NoRepeats.serve {s : RuleStore} (h : s.NoRepeats) (c : RuleCall α) :
    (s.serve c).2.NoRepeats := by
  rcases s.serve_cases c with hsame | ⟨r, hnone, hput, -⟩ | ⟨id, herase⟩
  · rwa [hsame]
  · rw [hput]
    exact h.put hnone
  · rw [herase]
    exact h.erase id

/-- An absent id stays absent under every call that does not bring it in. -/
theorem get?_serve_eq_none {s : RuleStore} {id : String} (h : s.get? id = none) {c : RuleCall α}
    (hc : c.bringsIn id = false) : (s.serve c).2.get? id = none := by
  rcases s.serve_cases c with hsame | ⟨r, -, hput, hbrings⟩ | ⟨other, herase⟩
  · rwa [hsame]
  · rw [hput, get?_put]
    split
    · next hid =>
      rw [hid] at hbrings
      rw [hbrings h] at hc
      cases hc
    · exact h
  · rw [herase, get?_erase, h, ite_self]

end RuleStore

end ChargeScreening
