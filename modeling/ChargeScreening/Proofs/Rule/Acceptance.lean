import ChargeScreening.Proofs.Expression.Negation
import ChargeScreening.Proofs.Rule.Readback
import ChargeScreening.Rule.Validation

/-!
# Rules that are accepted

A rule goes through checks that know nothing of each other: what a formula is, what its fields have
to be, how a clause is compiled, and what the reader takes. A proper rule passes all of them, with
one exception. The field of a clause that is not negated may be any word but `not`, in any case. In
front of the clause that word is the negation, and the text is refused.

## Main definitions

* `RuleDraft.MeantFor` — the scope that a draft names
* `DraftClause.Proper` — a clause as an author should write it
* `DraftClause.startsNot` — a clause whose field is taken for the negation

## Main results

* `checkScope_of_meantFor`, `checkFormulas_of_proper`, `compileExpression_of_proper` — the single
  checks, and the compilation, of a proper rule
* `validate_of_proper` — a proper rule is accepted just if no field is taken for the negation
-/

namespace ChargeScreening

/-! ### Scopes -/

/-- The id that a draft gives for a kind of scope, as it is written. -/
def RuleDraft.givenId (r : RuleDraft) : ScopeField → Option String
  | .company => r.companyId
  | .family => r.familyId
  | .familyCompany => r.familyCompanyId

/-- Whether a draft gives an id of a kind that is more than blanks. -/
def RuleDraft.names (r : RuleDraft) (field : ScopeField) : Bool :=
  (r.givenId field).any fun id => !Text.isAllBlank id

/-- The scope that a draft is meant for: a global one names no id, and any other names one, which
is taken without the blanks around it. -/
inductive RuleDraft.MeantFor (r : RuleDraft) : Scope → Prop
  | global (hglobal : r.isGlobal = true) (hnone : ∀ field, r.names field = false) :
      MeantFor r .global
  | under {field : ScopeField} {id : String} (hlocal : r.isGlobal = false)
      (hgiven : r.givenId field = some id) (hid : Text.isAllBlank id = false)
      (hothers : ∀ other, other ≠ field → r.names other = false) :
      MeantFor r (field.scope (Text.trim id))

/-- A text that is given and blank counts as none. -/
theorem filter_trim_eq_none {text : Option String}
    (h : (text.any fun s => !Text.isAllBlank s) = false) :
    (text.map Text.trim).filter (· ≠ "") = none := by
  cases text with
  | none => rfl
  | some s =>
    rw [Option.any_some, Bool.not_eq_false'] at h
    rw [Option.map_some, Text.trim_eq_empty_iff.mpr h]
    rfl

theorem filter_trim_eq_some {s : String} (h : Text.isAllBlank s = false) :
    ((some s).map Text.trim).filter (· ≠ "") = some (Text.trim s) := by
  have hne : Text.trim s ≠ "" := by
    rwa [Ne, Text.trim_eq_empty_iff, Bool.not_eq_true]
  exact Option.filter_eq_some_iff.mpr ⟨rfl, decide_eq_true hne⟩

/-- The check finds the scope that a draft is meant for. -/
theorem checkScope_of_meantFor {r : RuleDraft} {scope : Scope} (h : r.MeantFor scope) :
    checkScope r = .ok scope := by
  have hnone {field : ScopeField} (h : r.names field = false) :
      RuleDraft.presentId? (r.givenId field) = none :=
    filter_trim_eq_none h
  have hids : r.scopeIds = [ScopeField.company, .family, .familyCompany].flatMap fun field =>
      ((RuleDraft.presentId? (r.givenId field)).map (field, ·)).toList := by
    simp [RuleDraft.scopeIds, RuleDraft.givenId]
  cases h with
  | global hglobal hnames =>
    have hempty : r.scopeIds = [] := by
      rw [hids]
      exact List.flatMap_eq_nil_iff.mpr fun field _ => by rw [hnone (hnames field)]; rfl
    rw [checkScope, hglobal, hempty]
    rfl
  | @under field id hlocal hgiven hid hothers =>
    have hpresent : RuleDraft.presentId? (r.givenId field) = some (Text.trim id) := by
      rw [hgiven]
      exact filter_trim_eq_some hid
    have hone : r.scopeIds = [(field, Text.trim id)] := by
      have habsent : ∀ other, other ≠ field → RuleDraft.presentId? (r.givenId other) = none :=
        fun other hother => hnone (hothers other hother)
      rw [hids]
      cases field <;> simp [hpresent, habsent]
    rw [checkScope, hlocal, hone]
    rfl

/-! ### Values -/

/-- Whether a value is a single finite number, text or truth value. -/
def Value.isPlain : Value → Bool
  | .number x => x.isFinite
  | .text _ | .bool _ => true
  | .null | .array _ | .object _ => false

/-- Whether a value can stand behind an operator: a plain one, or behind `in` some of them. -/
def Value.suits (op : Operator) : Value → Bool
  | .array items => op == .isIn && !items.isEmpty && items.all isPlain
  | value => value.isPlain

theorem scalarLiteral?_of_isPlain {value : Value} (h : value.isPlain = true) (readsBools : Bool) :
    ∃ literal, scalarLiteral? readsBools value = some literal := by
  cases value with
  | number x => exact ⟨_, rfl⟩
  | bool b => exact ⟨_, rfl⟩
  | text s =>
    rw [scalarLiteral?]
    split
    · exact ⟨_, rfl⟩
    · split
      · exact ⟨_, rfl⟩
      · exact ⟨_, rfl⟩
  | null => cases h
  | array items => cases h
  | object members => cases h

theorem mapM_scalarLiteral?_of_isPlain {items : List Value} (h : items.all Value.isPlain = true)
    (readsBools : Bool) : ∃ literals, items.mapM (scalarLiteral? readsBools) = some literals
      ∧ literals.isEmpty = items.isEmpty := by
  induction items with
  | nil => exact ⟨[], rfl, rfl⟩
  | cons item items ih =>
    rw [List.all_cons, Bool.and_eq_true] at h
    obtain ⟨literal, hliteral⟩ := scalarLiteral?_of_isPlain h.1 readsBools
    obtain ⟨rest, hrest, -⟩ := ih h.2
    exact ⟨literal :: rest, by rw [List.mapM_cons, hliteral, hrest]; rfl, rfl⟩

/-- A value that suits an operator is plain, or some plain ones behind `in`. -/
theorem Value.suits_cases {op : Operator} {value : Value} (h : value.suits op = true) :
    value.isPlain = true ∨ ∃ items, value = .array items ∧ op = .isIn ∧ items.isEmpty = false
      ∧ items.all isPlain = true := by
  cases value with
  | array items =>
    rw [suits, Bool.and_eq_true, Bool.and_eq_true, beq_iff_eq, Bool.not_eq_true'] at h
    exact .inr ⟨items, rfl, h.1.1, h.1.2, h.2⟩
  | null => exact .inl h
  | bool b => exact .inl h
  | number x => exact .inl h
  | text s => exact .inl h
  | object members => exact .inl h

/-- A value that suits its operator is compiled. -/
theorem compileValue_of_suits {op : Operator} {value : Value} (h : value.suits op = true)
    (place : Nat) : ∃ literal, compileValue place op value = .ok literal := by
  obtain hplain | ⟨items, rfl, rfl, hne, hplain⟩ := Value.suits_cases h
  · obtain ⟨literal, hliteral⟩ := scalarLiteral?_of_isPlain hplain op.readsBools
    have hread : valueLiteral? op.readsBools value = some literal := by
      cases value with
      | array items => cases hplain
      | _ => exact hliteral
    have hscalar := (scalarLiteral?_spec hliteral).1
    rw [compileValue, hread]
    cases literal with
    | list items => cases hscalar
    | _ => cases op <;> exact ⟨_, rfl⟩
  · obtain ⟨literals, hliterals, hempty⟩ := mapM_scalarLiteral?_of_isPlain hplain true
    have hread : valueLiteral? Operator.isIn.readsBools (.array items) = some (.list literals) :=
      congrArg (Option.map Literal.list) hliterals
    refine ⟨.list literals, ?_⟩
    rw [compileValue, hread]
    simp only [hempty, hne]
    rfl

theorem isFinite_of_isPlain {value : Value} (h : value.isPlain = true) {x : Float}
    (hx : x ∈ value.numbers) : x.isFinite = true := by
  cases value with
  | number y => rwa [List.mem_singleton.mp hx]
  | array items => cases h
  | object members => cases h
  | _ => cases hx

theorem isFinite_of_all_isPlain {items : List Value} (h : items.all Value.isPlain = true)
    {x : Float} (hx : x ∈ Value.itemNumbers items) : x.isFinite = true := by
  induction items with
  | nil => cases hx
  | cons item items ih =>
    rw [List.all_cons, Bool.and_eq_true] at h
    rw [Value.itemNumbers, List.mem_append] at hx
    exact hx.elim (isFinite_of_isPlain h.1) (ih h.2)

/-- The numbers in a value that suits its operator are finite. -/
theorem isFinite_of_suits {op : Operator} {value : Value} (h : value.suits op = true) {x : Float}
    (hx : x ∈ value.numbers) : x.isFinite = true := by
  obtain hplain | ⟨items, rfl, -, -, hplain⟩ := Value.suits_cases h
  · exact isFinite_of_isPlain hplain hx
  · exact isFinite_of_all_isPlain hplain hx

/-! ### Formulas -/

/-- A clause says nothing about a formula if it names no formula fields and no operation. -/
theorem isFormula_eq_false_iff {c : DraftClause} :
    c.isFormula = false ↔ c.formulaFields.getD [] = []
      ∧ (c.formulaOp.map Text.trim).filter (· ≠ "") = none := by
  constructor
  · intro h
    refine ⟨formulaFields_of_not_isFormula h, ?_⟩
    rw [DraftClause.isFormula, Bool.or_eq_false_iff] at h
    exact filter_trim_eq_none h.2
  · rintro ⟨hfields, hword⟩
    rw [DraftClause.isFormula, Bool.or_eq_false_iff]
    constructor
    · cases hgiven : c.formulaFields with
      | none => rfl
      | some fields =>
        rw [hgiven, Option.getD_some] at hfields
        rw [hfields]
        rfl
    · cases hgiven : c.formulaOp with
      | none => rfl
      | some op =>
        rw [hgiven] at hword
        rw [Option.any_some, Bool.not_eq_false']
        by_contra hnotBlank
        rw [filter_trim_eq_some (Bool.eq_false_iff.mpr hnotBlank)] at hword
        cases hword

theorem checkFormulaFields_eq_ok_iff {place : Nat} {op : MathOp} {fields : List String} :
    checkFormulaFields place op fields = .ok ()
      ↔ op.accepts fields.length = true ∧ ∀ text ∈ fields, isNoPath text = false := by
  have haccepts : op.accepts fields.length = true ↔
      ¬fields.length < 2 ∧ op.arity?.filter (· ≠ fields.length) = none := by
    cases op <;> simp [MathOp.accepts, MathOp.arity?] <;> omega
  have hpaths : (∀ text ∈ fields, isNoPath text = false) ↔ fields.find? isNoPath = none := by
    simp [List.find?_eq_none]
  rw [checkFormulaFields, haccepts, hpaths]
  constructor
  · intro h
    split at h
    · cases h
    · next hmany =>
      split at h
      · cases h
      · next hexact =>
        split at h
        · cases h
        · next hnone => exact ⟨⟨hmany, hexact⟩, hnone⟩
  · rintro ⟨⟨hmany, hexact⟩, hnone⟩
    rw [if_neg hmany, hexact, hnone]

/-- A clause passes the check of formulas if it says nothing about one, or names an operation and
as many paths as that takes. The place of the clause is no matter. -/
theorem checkFormula_eq_ok_iff {place : Nat} {c : DraftClause} :
    checkFormula place c = .ok () ↔ c.isFormula = false
      ∨ ∃ word op, (c.formulaOp.map Text.trim).filter (· ≠ "") = some word
        ∧ MathOp.ofWord? word = some op ∧ op.accepts (c.formulaFields.getD []).length = true
        ∧ ∀ field ∈ c.formulaFields.getD [], isNoPath (Text.trim field) = false := by
  rw [isFormula_eq_false_iff, checkFormula]
  generalize (c.formulaOp.map Text.trim).filter (· ≠ "") = word
  cases c.formulaFields.getD [] with
  | nil =>
    cases word with
    | none => exact iff_of_true rfl (.inl ⟨rfl, rfl⟩)
    | some word =>
      refine iff_of_false nofun ?_
      rintro (⟨-, hword⟩ | ⟨other, op, -, -, haccepts, -⟩)
      · cases hword
      · cases (MathOp.accepts_iff.mp haccepts).1
  | cons field fields =>
    cases word with
    | none =>
      refine iff_of_false nofun ?_
      rintro (⟨hfields, -⟩ | ⟨other, op, hword, -⟩)
      · cases hfields
      · cases hword
    | some word =>
      simp only [List.map_cons, List.isEmpty_cons]
      cases hop : MathOp.ofWord? word with
      | none =>
        refine iff_of_false nofun ?_
        rintro (⟨hfields, -⟩ | ⟨other, op, hword, hother, -⟩)
        · cases hfields
        · cases hword
          rw [hop] at hother
          cases hother
      | some op =>
        rw [← List.map_cons, checkFormulaFields_eq_ok_iff, List.length_map, List.forall_mem_map]
        constructor
        · rintro ⟨haccepts, hpaths⟩
          exact .inr ⟨word, op, rfl, hop, haccepts, hpaths⟩
        · rintro (⟨hfields, -⟩ | ⟨other, op', hword, hother, haccepts, hpaths⟩)
          · cases hfields
          · cases hword
            rw [hop] at hother
            cases hother
            exact ⟨haccepts, hpaths⟩

theorem checkFormula_anywhere {place : Nat} {c : DraftClause} (h : checkFormula place c = .ok ())
    (other : Nat) : checkFormula other c = .ok () :=
  checkFormula_eq_ok_iff.mpr (checkFormula_eq_ok_iff.mp h)

theorem checkFormulas_singleton (c : DraftClause) : checkFormulas [c] = checkFormula 0 c := by
  rw [checkFormulas, checkFormulasFrom]
  cases checkFormula 0 c with
  | error err => rfl
  | ok _ => rfl

theorem checkFormulasFrom_of_forall {clauses : List DraftClause}
    (h : ∀ c ∈ clauses, checkFormula 0 c = .ok ()) (place : Nat) :
    checkFormulasFrom place clauses = .ok () := by
  induction clauses generalizing place with
  | nil => rfl
  | cons c rest ih =>
    obtain ⟨hfirst, hrest⟩ := List.forall_mem_cons.mp h
    rw [checkFormulasFrom, checkFormula_anywhere hfirst]
    exact ih hrest (place + 1)

/-! ### Clauses -/

namespace DraftClause

/-- The paths of a clause, without the blanks around them. -/
def paths (c : DraftClause) : List String :=
  c.presentField?.toList ++ (c.formulaFields.getD []).map Text.trim

/-- Whether the field of a clause is taken for the negation: the clause is not negated, and the
field is the word `not`, in any case. -/
def startsNot (c : DraftClause) : Bool :=
  !c.negated && c.presentField?.any fun field => Text.asciiLower field == "not"

/-- A clause as an author should write it. -/
structure Proper (c : DraftClause) : Prop where
  /-- It has a field that is more than blanks, or a formula that passes its check, and not both. -/
  sided : (c.presentField?.isSome = true ∧ c.isFormula = false)
    ∨ (c.presentField? = none ∧ c.isFormula = true ∧ checkFormulas [c] = .ok ())
  /-- Its paths are words. -/
  worded : ∀ path ∈ c.paths, isWord path = true
  /-- Its value can stand behind its operator. -/
  suited : c.value.suits c.operator = true

/-- The paths of a clause are read back if they are words and none is taken for the negation. -/
theorem namesWords_iff {c : DraftClause} :
    c.namesWords = true ↔ (∀ path ∈ c.paths, isWord path = true) ∧ c.startsNot = false := by
  have hfields : ((c.formulaFields.getD []).all fun field => isWord (Text.trim field)) = true
      ↔ ∀ path ∈ (c.formulaFields.getD []).map Text.trim, isWord path = true := by
    rw [List.all_eq_true, List.forall_mem_map]
  rw [namesWords, Bool.and_eq_true, hfields, paths, List.forall_mem_append, startsNot]
  cases c.presentField? with
  | none => simp
  | some field =>
    cases c.negated with
    | true => simp
    | false => simp [and_right_comm]

namespace Proper

variable {c : DraftClause}

theorem checkFormula_eq_ok (h : c.Proper) (place : Nat) : checkFormula place c = .ok () := by
  obtain ⟨-, hfield⟩ | ⟨-, -, hformula⟩ := h.sided
  · exact checkFormula_eq_ok_iff.mpr (.inl hfield)
  · rw [checkFormulas_singleton] at hformula
    exact checkFormula_anywhere hformula place

/-- A proper clause has an operand, and a formula has the operands that it needs. -/
theorem exists_operand (h : c.Proper) (place : Nat) :
    ∃ operand, c.operand place = .ok operand ∧ operand.hasCount = true := by
  obtain ⟨hfield, hformula⟩ | ⟨hfield, hformula, -⟩ := h.sided
  · obtain ⟨field, hfield⟩ := Option.isSome_iff_exists.mp hfield
    exact ⟨.field field, by rw [operand, hfield, hformula], rfl⟩
  · obtain hnone | ⟨word, op, hword, hop, haccepts, -⟩ :=
      checkFormula_eq_ok_iff.mp (h.checkFormula_eq_ok place)
    · rw [hformula] at hnone
      cases hnone
    · -- The check looks up the trimmed word, and compilation the word as it is written.
      obtain ⟨htrim, -⟩ := Option.filter_eq_some_iff.mp hword
      obtain ⟨written, hwritten, rfl⟩ := Option.map_eq_some_iff.mp htrim
      have hop' : MathOp.ofWord? (c.formulaOp.getD "") = some op := by
        rw [hwritten, Option.getD_some, ← hop, MathOp.ofWord?, MathOp.ofWord?, Text.trim_trim]
      refine ⟨.formula op ((c.formulaFields.getD []).map fun f => .field (Text.trim f)), ?_, ?_⟩
      · rw [operand, hfield, hformula]
        simp only [hop']
      · rw [Operand.hasCount, List.length_map, haccepts]

theorem exists_compiled (h : c.Proper) (place : Nat) :
    ∃ compiled, compileClause place c = .ok compiled := by
  obtain ⟨operand, hoperand, -⟩ := h.exists_operand place
  obtain ⟨literal, hliteral⟩ := compileValue_of_suits h.suited place
  exact ⟨_, by rw [compileClause, hoperand, hliteral]; rfl⟩

theorem hasCount_compiled (h : c.Proper) {place : Nat} {compiled : Clause}
    (hcompiled : compileClause place c = .ok compiled) : compiled.operand.hasCount = true := by
  obtain ⟨operand, hoperand, hcount⟩ := h.exists_operand place
  rw [operand_of_compileClause hcompiled] at hoperand
  rwa [Except.ok.inj hoperand]

/-- The operand of a proper clause can be spelled, at least behind a `not`. -/
theorem isWorded_compiled (h : c.Proper) {place : Nat} {compiled : Clause}
    (hcompiled : compileClause place c = .ok compiled) :
    compiled.operand.isWorded true = true := by
  -- The operand is that of the negated clause as well, and there every word will do.
  have hnegated : operand place { c with negated := true } = .ok compiled.operand := by
    rw [← operand_of_compileClause hcompiled]
    simp only [operand, presentField?, isFormula]
  rw [(operand_spec hnegated).1]
  have hpaths : paths { c with negated := true } = c.paths := rfl
  have hstarts : startsNot { c with negated := true } = false := by
    rw [startsNot, Bool.not_true, Bool.false_and]
  rw [namesWords_iff, hpaths]
  exact ⟨h.worded, hstarts⟩

end Proper

end DraftClause

/-! ### Rules -/

theorem checkFormulas_of_proper {clauses : List DraftClause} (h : ∀ c ∈ clauses, c.Proper) :
    checkFormulas clauses = .ok () :=
  checkFormulasFrom_of_forall (fun c hc => (h c hc).checkFormula_eq_ok 0) 0

theorem exists_compileClauses {placed : List (DraftClause × Nat)}
    (h : ∀ p ∈ placed, ∃ c, compileClause p.2 p.1 = .ok c) :
    ∃ cs, compileClauses placed = .ok cs := by
  induction placed with
  | nil => exact ⟨[], rfl⟩
  | cons p rest ih =>
    obtain ⟨⟨c, hc⟩, hrest⟩ := List.forall_mem_cons.mp h
    obtain ⟨cs, hcs⟩ := ih hrest
    exact ⟨c :: cs, by rw [compileClauses, hc, hcs]; rfl⟩

/-- Proper clauses are compiled. -/
theorem compileExpression_of_proper {clauses : List DraftClause} (hne : clauses ≠ [])
    (h : ∀ c ∈ clauses, c.Proper) : ∃ e, compileExpression clauses = .ok e := by
  obtain ⟨cs, hcs⟩ : ∃ cs, compileClauses (formulasFirst clauses) = .ok cs :=
    exists_compileClauses fun p hp =>
      (h p.1 (List.fst_mem_of_mem_zipIdx (mem_formulasFirst_iff.mp hp))).exists_compiled p.2
  exact ⟨⟨cs⟩, compileExpression_eq_ok_iff.mpr ⟨hne, hcs⟩⟩

/-- The text of proper clauses is read just if no field is taken for the negation. -/
theorem parse_proper_iff {clauses : List DraftClause} (h : ∀ c ∈ clauses, c.Proper)
    {e : Expression} (he : compileExpression clauses = .ok e) :
    (∃ e', Expression.parse e.render = .ok e') ↔ ∀ c ∈ clauses, c.startsNot = false := by
  have hcompiled : ∀ c ∈ e.clauses,
      c.operand.isWorded true = true ∧ c.operand.hasCount = true := by
    intro c hc
    obtain ⟨draft, hdraft, place, hcompiled⟩ := exists_compiled_of_mem he hc
    exact ⟨(h draft hdraft).isWorded_compiled hcompiled,
      (h draft hdraft).hasCount_compiled hcompiled⟩
  have hfits : ∀ c ∈ e.clauses, c.value.fits c.operator = true := by
    intro c hc
    obtain ⟨draft, -, hfrom⟩ := exists_draft_of_mem he hc
    exact hfrom.fitting
  have hfinite : ∀ x ∈ e.numbers, x.isFinite = true := by
    intro x hx
    obtain ⟨draft, hdraft, hx⟩ := exists_number_of_mem he hx
    exact isFinite_of_suits (h draft hdraft).suited hx
  rw [parse_render_eq_ok_iff (compileExpression_spec he).1 (fun c hc => (hcompiled c hc).1)
    (fun c hc => (hcompiled c hc).2) hfits hfinite, forall_isWorded_iff he]
  refine forall₂_congr fun c hc => ?_
  rw [DraftClause.namesWords_iff, and_iff_right (h c hc).worded]

/-- A rule that passes the first checks is as good as its text. -/
theorem validate_of_checks {r : RuleDraft} {d : Decision} {scope : Scope}
    (hdecision : checkDecision r.decision = .ok d) (hflag : checkYellowFlag r = .ok ())
    (hscope : checkScope r = .ok scope) (hformulas : checkFormulas r.clauses = .ok ()) :
    r.validate = (compileText r.clauses).map fun text =>
      ⟨scope, d, text, readsIdentity r.clauses⟩ := by
  rw [RuleDraft.validate, hdecision, hflag, hscope, hformulas]

theorem checkDecision_of_word {word : String} {d : Decision}
    (h : Text.asciiLower (Text.trim word) = d.word) : checkDecision word = .ok d := by
  have hread : Decision.ofWord? word = some d := by
    rw [Decision.ofWord?, h]
    cases d <;> rfl
  rw [checkDecision, hread]

theorem checkYellowFlag_of_undecided {r : RuleDraft} {d : Decision}
    (hdecision : checkDecision r.decision = .ok d) (h : r.yellowFlag = true → d = .undecided) :
    checkYellowFlag r = .ok () := by
  rw [checkYellowFlag]
  split
  · next hflag => rw [hdecision, h hflag]
  · rfl

/-- **A proper rule is accepted just if no field is taken for the negation.** A rule is proper if
its decision is one of the three words, and `undecided` under a yellow flag; if it names one id, or
none if it is global; and if it has clauses, all of them proper. Then it is compiled. Accepted, it
has the scope of the trimmed id, the decision, and the text of the compiled clauses; refused, it is
for that text. -/
theorem validate_of_proper {r : RuleDraft} {d : Decision} {scope : Scope}
    (hword : Text.asciiLower (Text.trim r.decision) = d.word)
    (hflag : r.yellowFlag = true → d = .undecided) (hscope : r.MeantFor scope)
    (hne : r.clauses ≠ []) (hproper : ∀ c ∈ r.clauses, c.Proper) :
    ∃ e, compileExpression r.clauses = .ok e
      ∧ ((∀ c ∈ r.clauses, c.startsNot = false) →
          r.validate = .ok ⟨scope, d, e.render, readsIdentity r.clauses⟩)
      ∧ ((∃ c ∈ r.clauses, c.startsNot = true) →
          ∃ cause, r.validate = .error (.invalidExpression cause)) := by
  obtain ⟨e, he⟩ := compileExpression_of_proper hne hproper
  have hdecision := checkDecision_of_word hword
  have hvalidate := validate_of_checks hdecision (checkYellowFlag_of_undecided hdecision hflag)
    (checkScope_of_meantFor hscope) (checkFormulas_of_proper hproper)
  have hreads := parse_proper_iff hproper he
  simp only [compileText, he] at hvalidate
  refine ⟨e, he, fun hplain => ?_, ?_⟩
  · obtain ⟨e', hparse⟩ := hreads.mpr hplain
    rw [hvalidate, hparse]
    rfl
  · rintro ⟨c, hc, hstarts⟩
    cases hparse : Expression.parse e.render with
    | ok e' =>
      rw [hreads.mp ⟨e', hparse⟩ c hc] at hstarts
      cases hstarts
    | error cause =>
      rw [hvalidate, hparse]
      exact ⟨cause, rfl⟩

/-- The theorem on a rule of a company with a field and a formula: blanks around the decision, the
id, the paths and the operation, a blank id besides, and a field that is the word `not` behind
another one. -/
theorem validate_of_proper_blanks :
    let field : DraftClause :=
      { field := some " Not ", operator := .isIn, negated := true, connective := some .or,
        value := .array [.text "TRUE", .bool false, .number (-0.5)] }
    let formula : DraftClause :=
      { field := some "  ", operator := .ge, value := .text "12",
        formulaFields := some [" card.h1.count ", "payer-h1"], formulaOp := some " subtract " }
    let r : RuleDraft :=
      { decision := " UNDECIDED ", yellowFlag := true, companyId := some " c1 ",
        familyId := some " ", clauses := [field, formula] }
    Text.asciiLower (Text.trim r.decision) = Decision.undecided.word
      ∧ r.MeantFor (.company "c1") ∧ field.Proper ∧ formula.Proper
      ∧ ∃ e, compileExpression r.clauses = .ok e
        ∧ r.validate = .ok ⟨.company "c1", .undecided, e.render, false⟩ := by
  intro field formula r
  have hword : Text.asciiLower (Text.trim r.decision) = Decision.undecided.word := by decide
  have hscope : r.MeantFor (.company "c1") := by
    refine @RuleDraft.MeantFor.under r .company " c1 " rfl rfl (by decide) fun other hother => ?_
    cases other with
    | company => exact absurd rfl hother
    | family => decide
    | familyCompany => decide
  have hfield : field.Proper :=
    ⟨.inl ⟨by decide, by decide⟩, by decide, by decide +kernel⟩
  have hformula : formula.Proper :=
    ⟨.inr ⟨by decide, by decide, by decide +kernel⟩, by decide, by decide +kernel⟩
  have hproper : ∀ c ∈ r.clauses, c.Proper :=
    List.forall_mem_cons.mpr ⟨hfield, List.forall_mem_singleton.mpr hformula⟩
  have hplain : ∀ c ∈ r.clauses, c.startsNot = false :=
    List.forall_mem_cons.mpr ⟨by decide, List.forall_mem_singleton.mpr (by decide)⟩
  obtain ⟨e, he, hok, -⟩ :=
    validate_of_proper hword (fun _ => rfl) hscope (List.cons_ne_nil _ _) hproper
  have hidentity : readsIdentity r.clauses = false := by decide
  refine ⟨hword, hscope, hfield, hformula, e, he, ?_⟩
  rw [hok hplain, hidentity]

/-- A field that differs from the word `not` in case alone is refused as well, in an otherwise
proper rule. -/
theorem validate_capitalNot :
    let c : DraftClause := { field := some "NOT", operator := .eq, value := .number 1 }
    let r : RuleDraft := { decision := "declined", isGlobal := true, clauses := [c] }
    Text.asciiLower (Text.trim r.decision) = Decision.declined.word ∧ r.yellowFlag = false
      ∧ r.MeantFor .global ∧ c.Proper ∧ c.negated = false
      ∧ c.presentField? = some "NOT" ∧ "NOT" ≠ "not"
      ∧ r.validate = .error (.invalidExpression (.unexpectedToken "1" .operator 7)) := by
  intro c r
  have hscope : r.MeantFor .global := .global rfl fun field => by cases field <;> rfl
  have hproper : c.Proper := ⟨.inl ⟨by decide, by decide⟩, by decide, by decide +kernel⟩
  exact ⟨by decide, rfl, hscope, hproper, rfl, by decide, by decide, by decide +kernel⟩

end ChargeScreening
