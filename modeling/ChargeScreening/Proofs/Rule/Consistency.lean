import ChargeScreening.Proofs.Rule.Readback
import ChargeScreening.Rule.Validation

/-!
# Rules that agree with their clauses

A rule is stored with what the checks have worked out of the draft: a scope, a decision, flags, and
the text that is evaluated. The draft itself is gone then, but its clauses are kept, and everything
else on the rule can be held against them.

## Main definitions

* `Rule.Consistent` — a rule whose text, flags and scope agree with its clauses and each other

## Main results

* `validate_eq_ok_iff` — what the checks yield
* `consistent_build` — a rule that is built from a checked draft is consistent
-/

namespace ChargeScreening

/-! ### Consistency -/

/-- The id that a scope names. -/
def Scope.id? : Scope → Option String
  | .global => none
  | .company id | .familyMcc id | .familyCompany id => some id

/-- Whether an id is more than blanks, and has none of them around it. -/
def IsTrimmedId (id : String) : Prop :=
  Text.isAllBlank id = false ∧ Text.trim id = id

/-- A rule whose text, flags and scope agree with its clauses and each other. -/
structure Rule.Consistent (r : Rule) : Prop where
  /-- Its text is what its clauses compile to. -/
  text : compileText r.clauses = .ok r.text
  /-- Its text can be read. -/
  parses : ∃ e, Expression.parse r.text = .ok e
  isGlobal : r.isGlobal = r.scope.isGlobal
  /-- Every scope but the global one names a proper id. -/
  scope : ∀ id, r.scope.id? = some id → IsTrimmedId id
  /-- A yellow flag decides nothing. -/
  decision : r.isYellowFlag = true → r.decision = .undecided
  isIdentity : r.isIdentity = readsIdentity r.clauses

/-! ### The checks -/

theorem isTrimmedId_of_presentId? {id : Option String} {present : String}
    (h : RuleDraft.presentId? id = some present) : IsTrimmedId present := by
  obtain ⟨htrim, hne⟩ := Option.filter_eq_some_iff.mp h
  obtain ⟨written, -, rfl⟩ := Option.map_eq_some_iff.mp htrim
  exact ⟨Text.isAllBlank_of_trim_eq (Text.trim_trim written) (of_decide_eq_true hne),
    Text.trim_trim written⟩

/-- The ids that a draft names are proper ones. -/
theorem isTrimmedId_of_mem_scopeIds {r : RuleDraft} {p : ScopeField × String}
    (h : p ∈ r.scopeIds) : IsTrimmedId p.2 := by
  have hmem {field : ScopeField} {id : Option String}
      (h : p ∈ ((RuleDraft.presentId? id).map (field, ·)).toList) : IsTrimmedId p.2 := by
    obtain ⟨present, hpresent, rfl⟩ := Option.map_eq_some_iff.mp (Option.mem_toList.mp h)
    exact isTrimmedId_of_presentId? hpresent
  rw [RuleDraft.scopeIds, List.mem_append, List.mem_append] at h
  rcases h with (h | h) | h
  · exact hmem h
  · exact hmem h
  · exact hmem h

/-- Whatever scope passes, the id that it names is a proper one. -/
theorem isTrimmedId_of_checkScope {r : RuleDraft} {scope : Scope} (h : checkScope r = .ok scope)
    {id : String} (hid : scope.id? = some id) : IsTrimmedId id := by
  unfold checkScope at h
  simp only at h
  split at h
  · split at h
    · cases h
      cases hid
    · cases h
  · split at h
    · cases h
    · next field named hids =>
      cases h
      have hnamed : IsTrimmedId named :=
        isTrimmedId_of_mem_scopeIds (p := (field, named)) (hids ▸ List.mem_singleton_self _)
      cases field <;> cases hid <;> exact hnamed
    · cases h

/-- A yellow flag passes only with the decision that decides nothing. -/
theorem checkYellowFlag_eq_ok {r : RuleDraft} (h : checkYellowFlag r = .ok ())
    (hflag : r.yellowFlag = true) : checkDecision r.decision = .ok .undecided := by
  rw [checkYellowFlag, if_pos hflag] at h
  split at h
  · cases h
  · next hdecision => exact hdecision
  · cases h

/-- All checks pass, and these are the parts that they yield. -/
theorem validate_eq_ok_iff {r : RuleDraft} {v : ValidatedRule} :
    r.validate = .ok v ↔ checkDecision r.decision = .ok v.decision ∧ checkYellowFlag r = .ok ()
      ∧ checkScope r = .ok v.scope ∧ checkFormulas r.clauses = .ok ()
      ∧ compileText r.clauses = .ok v.text ∧ v.isIdentity = readsIdentity r.clauses := by
  rw [RuleDraft.validate]
  cases checkDecision r.decision with
  | error e => exact ⟨nofun, nofun⟩
  | ok decision =>
    cases checkYellowFlag r with
    | error e => exact ⟨nofun, nofun⟩
    | ok _ =>
      cases checkScope r with
      | error e => exact ⟨nofun, nofun⟩
      | ok scope =>
        cases checkFormulas r.clauses with
        | error e => exact ⟨nofun, nofun⟩
        | ok _ =>
          cases compileText r.clauses with
          | error e => exact ⟨nofun, nofun⟩
          | ok text =>
            constructor
            · intro h
              cases h
              exact ⟨rfl, rfl, rfl, rfl, rfl, rfl⟩
            · rintro ⟨hdecision, -, hscope, -, htext, hidentity⟩
              obtain ⟨scope', decision', text', isIdentity'⟩ := v
              cases hdecision
              cases hscope
              cases htext
              cases hidentity
              rfl

/-! ### Rules from drafts -/

/-- **A rule that is built from a checked draft is consistent.** -/
theorem consistent_build {r : RuleDraft} {v : ValidatedRule} (h : r.validate = .ok v) (id : String)
    (now : Timestamp) : (r.build id v now).Consistent := by
  obtain ⟨hdecision, hflag, hscope, -, htext, hidentity⟩ := validate_eq_ok_iff.mp h
  obtain ⟨-, e, -, -, hparse⟩ := compileText_eq_ok htext
  refine ⟨htext, ⟨e, hparse⟩, rfl, fun id => isTrimmedId_of_checkScope hscope, fun hyellow => ?_,
    hidentity⟩
  rw [checkYellowFlag_eq_ok hflag hyellow] at hdecision
  exact (Except.ok.inj hdecision).symm

/-- The moment at which a rule was created is no matter of consistency. -/
theorem Rule.Consistent.withCreatedAt {r : Rule} (h : r.Consistent) (moment : Timestamp) :
    Rule.Consistent { r with createdAt := moment } :=
  ⟨h.text, h.parses, h.isGlobal, h.scope, h.decision, h.isIdentity⟩

end ChargeScreening
