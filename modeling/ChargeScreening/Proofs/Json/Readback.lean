import ChargeScreening.Charge
import ChargeScreening.Engine.Settings
import ChargeScreening.Proofs.Expression.Parsing
import ChargeScreening.Proofs.Json.Values
import ChargeScreening.Rule.Basic
import ChargeScreening.Rule.Draft
import ChargeScreening.Verdict

/-!
# Documents read back

Everything that is stored or sent is written as a JSON document and read as what it was. Missing
parts are left out in one place and written as `null` in another, some fields go by several names,
words stand for the cases of a type, and a blank connective stands for none; none of this loses
anything on the way back.

What can be written is all that a document can hold: numbers have to be finite, names have to be
distinct, and whole numbers have to fit the width that they are read with.

## Main definitions

* `RuleDraft.WellFormed`, `Rule.WellFormed`, `Charge.WellFormed`, `EngineSettings.WellFormed` — what
  is held by documents

## Main results

* `documents_read_back` — the documents of rules, list entries, consoles, charges, settings,
  verdicts and expressions read back
-/

namespace ChargeScreening

/-! ### Words -/

@[simp] theorem Operator.ofJson?_toJson (op : Operator) : ofJson? op.toJson = some op := by
  rw [ofJson?, toJson, Json.text?_string, Option.bind_some, ofWord?_word]

@[simp] theorem MathOp.ofJson?_toJson (op : MathOp) : ofJson? op.toJson = some op := by
  rw [ofJson?, toJson, Json.text?_string, Option.bind_some, ofWord?_word]

@[simp] theorem Connective.ofJson?_toJson (c : Connective) : ofJson? c.toJson = some c := by
  rw [ofJson?, toJson, Json.text?_string, Option.bind_some, ofWord?_word]

/-! ### Consoles and settings -/

@[simp] theorem ConsoleEntry.ofJson?_toJson (e : ConsoleEntry) : ofJson? e.toJson = some e := by
  simp [ofJson?, toJson, Json.list?_map]

@[simp] theorem Console.ofJson?_toJson (c : Console) : ofJson? c.toJson = some c := by
  rw [ofJson?, toJson, Json.list?_map fun e _ => e.ofJson?_toJson, Option.map_some]

/-- Settings whose times can be written. -/
structure EngineSettings.WellFormed (c : EngineSettings) : Prop where
  fetchTimeoutMs : c.fetchTimeoutMs < Nat.pow 2 64
  scoreTimeoutMs : c.scoreTimeoutMs < Nat.pow 2 64

theorem millisOfJson?_ofNat {n : Nat} (h : n < Nat.pow 2 64) :
    millisOfJson? (.ofNat n) = some n := by
  rw [millisOfJson?, Json.natBelow?_ofNat h]

theorem EngineSettings.ofJson?_toJson {c : EngineSettings} (h : c.WellFormed) :
    ofJson? c.toJson = some c := by
  simp [ofJson?, toJson, millisOfJson?_ofNat h.fetchTimeoutMs, millisOfJson?_ofNat h.scoreTimeoutMs]

/-! ### Rules -/

namespace DraftClause

/-- A missing connective is written as `null` and not left out. -/
@[simp] theorem connectiveOfJson?_toJson? (c : Option Connective) :
    connectiveOfJson? (Connective.toJson? c) = some c := by
  cases c with
  | none => rfl
  | some c => cases c <;> decide

theorem ofJson?_toJson {c : DraftClause} (h : c.value.WellFormed) : ofJson? c.toJson = some c := by
  simp [ofJson?, toJson, Value.ofJson?_toJson h, Json.list?_map]

theorem list?_clauses {clauses : List DraftClause} (h : ∀ c ∈ clauses, c.value.WellFormed) :
    Json.list? ofJson? (.array (clauses.map toJson)) = some clauses :=
  Json.list?_map fun c hc => ofJson?_toJson (h c hc)

end DraftClause

/-- A draft whose values can be written. -/
def RuleDraft.WellFormed (r : RuleDraft) : Prop :=
  ∀ c ∈ r.clauses, c.value.WellFormed

theorem RuleDraft.ofJson?_toJson {r : RuleDraft} (h : r.WellFormed) :
    ofJson? r.toJson = some r := by
  simp [ofJson?, ofRecord?, toJson, DraftClause.list?_clauses h]

/-- A rule whose values can be written and whose times are read as what they are. -/
structure Rule.WellFormed (r : Rule) : Prop where
  clauses : ∀ c ∈ r.clauses, c.value.WellFormed
  createdAt : Timestamp.ofJson? r.createdAt.toJson = some r.createdAt
  updatedAt : Timestamp.ofJson? r.updatedAt.toJson = some r.updatedAt

theorem Rule.ofJson?_toJson {r : Rule} (h : r.WellFormed) : ofJson? r.toJson = some r := by
  rw [ofJson?, toJson, Json.Record.record?_objectOf, Option.bind_eq_bind, Option.bind_some]
  -- Each field is looked up by itself; the fields are put together in the end.
  simp only [Json.Record.required?_written, Json.Record.withDefault?_written,
    Json.Record.optional?_written, Json.under_member, Json.under_member?, Json.under_nil,
    List.contains_eq_mem, List.mem_cons, List.not_mem_nil, or_false, or_self, String.reduceEq,
    decide_true, decide_false, Bool.false_eq_true, ↓reduceIte, List.append_nil,
    Json.once?_singleton, Json.once?_toList, Json.orAbsent?_some, Json.unlessNull?_map, ne_eq,
    reduceCtorEq, not_false_eq_true, implies_true, Option.bind_some, Json.text?_string,
    Json.flag?_bool, Scope.ofJson?_toJson, Decision.ofJson?_toJson,
    DraftClause.list?_clauses h.clauses, h.createdAt, h.updatedAt]
  rfl

theorem ListEntry.ofJson?_toJson (e : ListEntry) : ofJson? e.toJson = some e := by
  simp [ofJson?, toJson]

/-! ### Charges -/

/-- The object of the texts that are present is one of members that may be missing. -/
theorem NamedTexts.toJson_eq_objectOf (parts : NamedTexts) :
    toJson parts = Json.objectOf (parts.map fun p => Json.member? p.1 p.2 .string) := by
  rw [toJson, Json.objectOf, List.filterMap_map]
  rfl

@[simp] theorem Payer.ofJson?_toJson (p : Payer) : ofJson? p.parts.toJson = some p := by
  simp [ofJson?, parts, NamedTexts.toJson_eq_objectOf]

@[simp] theorem PaymentMethod.ofJson?_toJson (p : PaymentMethod) :
    ofJson? p.parts.toJson = some p := by
  simp [ofJson?, parts, NamedTexts.toJson_eq_objectOf]

@[simp] theorem Device.ofJson?_toJson (d : Device) : ofJson? d.parts.toJson = some d := by
  simp [ofJson?, parts, NamedTexts.toJson_eq_objectOf]

namespace Charge

/-- A charge whose numbers and attributes can be written. -/
structure WellFormed (c : Charge) : Prop where
  amount : c.amount.isFinite = true
  monthlyInstallments : ∀ n, c.monthlyInstallments = some n → n < Nat.pow 2 32
  identity : (Value.object c.identity).WellFormed
  aggregation : (Value.object c.aggregation).WellFormed
  metadata : (Value.object c.metadata).WellFormed

theorem ofJson?_toJson {c : Charge} (h : c.WellFormed) : ofJson? c.toJson = some c := by
  have hinstallments : Json.unlessNull? (Json.natBelow? (Nat.pow 2 32))
      (c.monthlyInstallments.map Json.ofNat) = some c.monthlyInstallments :=
    Json.unlessNull?_map nofun fun n hn => Json.natBelow?_ofNat (h.monthlyInstallments n hn)
  have hdevice (d : Device) : d.parts.toJson ≠ .null := nofun
  have hconsole (c : Console) : c.toJson ≠ .null := nofun
  rw [ofJson?, toJson, Json.Record.record?_objectOf, Option.bind_eq_bind, Option.bind_some]
  simp only [Json.Record.required?_written, Json.Record.withDefault?_written,
    Json.Record.optional?_written, Json.under_member, Json.under_member?, Json.under_nil,
    List.contains_eq_mem, List.mem_cons, List.not_mem_nil, or_false, or_self, String.reduceEq,
    decide_true, decide_false, Bool.false_eq_true, ↓reduceIte, List.append_nil,
    Json.once?_singleton, Json.once?_toList, Json.orAbsent?_some, Json.unlessNull?_map, ne_eq,
    reduceCtorEq, not_false_eq_true, implies_true, Option.bind_some, Json.text?_string,
    Json.double?_ofFloat h.amount, hinstallments, Payer.ofJson?_toJson,
    PaymentMethod.ofJson?_toJson, hdevice, Device.ofJson?_toJson,
    Value.membersOfJson?_toJson h.identity, Value.membersOfJson?_toJson h.aggregation,
    Value.membersOfJson?_toJson h.metadata, hconsole, Console.ofJson?_toJson]
  rfl

end Charge

/-! ### Verdicts -/

@[simp] theorem Match.ofJson?_toJson (m : Match) : ofJson? m.toJson = some m := by
  simp [ofJson?, toJson]

@[simp] theorem CandidateError.ofJson?_toJson (e : CandidateError) :
    ofJson? e.toJson = some e := by
  simp [ofJson?, toJson]

@[simp] theorem ComponentResult.ofJson?_toJson (r : ComponentResult) :
    ofJson? r.toJson = some r := by
  simp [ofJson?, toJson, Json.list?_map]

theorem Verdict.ofJson?_toJson (v : Verdict) : ofJson? v.toJson = some v := by
  have hcomponent (c : Component) : c.toJson ≠ .null := nofun
  simp [ofJson?, toJson, Json.list?_map, hcomponent]

/-! ### Expressions -/

theorem FormulaArg.ofJson?_toJson {a : FormulaArg} (h : ∀ x ∈ a.numbers, x.isFinite = true) :
    ofJson? a.toJson = some a := by
  cases a with
  | field path => rfl
  | constant x =>
    have hx : (Json.ofFloat x).double? = some x :=
      Json.double?_ofFloat (h x (List.mem_singleton_self x))
    simp [toJson, ofJson?, Json.choice?, hx]

theorem Operand.ofJson?_toJson {o : Operand} (h : ∀ x ∈ o.numbers, x.isFinite = true) :
    ofJson? o.toJson = some o := by
  cases o with
  | field path => rfl
  | formula op args =>
    have hargs : Json.list? FormulaArg.ofJson? (.array (args.map FormulaArg.toJson)) = some args :=
      Json.list?_map fun a ha => FormulaArg.ofJson?_toJson fun x hx =>
        h x (List.mem_flatMap.mpr ⟨a, ha, hx⟩)
    simp [toJson, ofJson?, Json.choice?, formulaOfJson?, Json.Record.named_eq_written, hargs]

namespace Clause

@[simp] theorem unlessNull?_connective (c : Option Connective) :
    Json.unlessNull? Connective.ofJson? (some (Connective.toJson? c)) = some c := by
  cases c with
  | none => rfl
  | some c => cases c <;> decide

theorem ofJson?_toJson {c : Clause} (h : ∀ x ∈ c.numbers, x.isFinite = true) :
    ofJson? c.toJson = some c := by
  obtain ⟨hoperand, hvalue⟩ := List.forall_mem_append.mp h
  simp [ofJson?, toJson, Operand.ofJson?_toJson hoperand, c.value.ofJson?_toJson hvalue]

end Clause

theorem Expression.ofJson?_toJson {e : Expression} (h : ∀ x ∈ e.numbers, x.isFinite = true) :
    ofJson? e.toJson = some e := by
  have hclauses : Json.list? Clause.ofJson? (.array (e.clauses.map Clause.toJson))
      = some e.clauses :=
    Json.list?_map fun c hc => Clause.ofJson?_toJson fun x hx =>
      h x (List.mem_flatMap.mpr ⟨c, hc, hx⟩)
  simp [ofJson?, toJson, hclauses]

/-! ### All documents -/

/-- **Documents read back.** Whatever is stored or sent and can be written is read from its document
as what it was. -/
theorem documents_read_back :
    (∀ r : RuleDraft, r.WellFormed → RuleDraft.ofJson? r.toJson = some r)
      ∧ (∀ r : Rule, r.WellFormed → Rule.ofJson? r.toJson = some r)
      ∧ (∀ e : ListEntry, ListEntry.ofJson? e.toJson = some e)
      ∧ (∀ c : Console, Console.ofJson? c.toJson = some c)
      ∧ (∀ c : Charge, c.WellFormed → Charge.ofJson? c.toJson = some c)
      ∧ (∀ c : EngineSettings, c.WellFormed → EngineSettings.ofJson? c.toJson = some c)
      ∧ (∀ v : Verdict, Verdict.ofJson? v.toJson = some v)
      ∧ ∀ e : Expression, (∀ x ∈ e.numbers, x.isFinite = true) →
        Expression.ofJson? e.toJson = some e :=
  ⟨fun _ h => RuleDraft.ofJson?_toJson h, fun _ h => Rule.ofJson?_toJson h,
    ListEntry.ofJson?_toJson, Console.ofJson?_toJson, fun _ h => Charge.ofJson?_toJson h,
    fun _ h => EngineSettings.ofJson?_toJson h, Verdict.ofJson?_toJson,
    fun _ h => Expression.ofJson?_toJson h⟩

/-- The theorem on clauses over nested values and a formula, a rule of them, a charge with a console
of its own, the default settings, and an expression with a list. -/
theorem documents_read_back_nestedValues :
    let clauses : List DraftClause :=
      [{ field := some "amount", operator := .isIn, negated := true, connective := some .or,
         value := .array [.number 5, .object [("a", .null), ("b", .array [.bool true])]] },
        { operator := .gt, value := .number 0.5, formulaOp := some "sum",
          formulaFields := some ["a", "b"] }]
    let draft : RuleDraft := { decision := "declined", companyId := some "c1", clauses }
    let rule : Rule :=
      { id := "r", scope := .company "c1", decision := .declined, clauses, text := "amount gt 1",
        createdAt := ⟨1700000000, 5000000⟩, updatedAt := ⟨1700000001, 0⟩ }
    let charge : Charge :=
      { companyId := "c1", amount := 5, monthlyInstallments := some 12,
        identity := [("score", .number 0.5), ("flags", .object [("new", .bool true)])],
        console := some ⟨[⟨.yellowFlag, [.declined]⟩]⟩ }
    let expression : Expression :=
      ⟨[⟨true, .formula .div [.field "a", .constant 0.5], .isIn, .list [.number 1, .text "x"],
        some .or⟩]⟩
    (draft.WellFormed ∧ rule.WellFormed ∧ charge.WellFormed ∧ EngineSettings.WellFormed {}
        ∧ ∀ x ∈ expression.numbers, x.isFinite = true)
      ∧ RuleDraft.ofJson? draft.toJson = some draft ∧ Rule.ofJson? rule.toJson = some rule
      ∧ Charge.ofJson? charge.toJson = some charge
      ∧ EngineSettings.ofJson? (EngineSettings.toJson {}) = some {}
      ∧ Expression.ofJson? expression.toJson = some expression := by
  intro clauses draft rule charge expression
  have hhalf : (0.5 : Float).isFinite = true := by decide +kernel
  have hfive : (5 : Float).isFinite = true := by decide +kernel
  have hone : (1 : Float).isFinite = true := by decide +kernel
  have hclauses : ∀ c ∈ clauses, c.value.WellFormed := by
    simp [clauses, Value.WellFormed, Value.ItemsWellFormed, Value.MembersWellFormed, hhalf, hfive]
  have hdraft : draft.WellFormed := hclauses
  have hrule : rule.WellFormed := ⟨hclauses, by decide +kernel, by decide +kernel⟩
  have hcharge : charge.WellFormed := by
    refine ⟨hfive, ?_, ?_, ?_, ?_⟩
    · simp [charge]
    all_goals simp [charge, Value.WellFormed, Value.MembersWellFormed, hhalf]
  have hsettings : EngineSettings.WellFormed {} := ⟨by decide, by decide⟩
  have hexpression : ∀ x ∈ expression.numbers, x.isFinite = true := by
    simp [expression, Expression.numbers, Clause.numbers, Operand.numbers, FormulaArg.numbers,
      Literal.numbers, Literal.itemNumbers, hhalf, hone]
  obtain ⟨hdrafts, hrules, -, -, hcharges, hallSettings, -, hexpressions⟩ := documents_read_back
  exact ⟨⟨hdraft, hrule, hcharge, hsettings, hexpression⟩, hdrafts draft hdraft, hrules rule hrule,
    hcharges charge hcharge, hallSettings {} hsettings, hexpressions expression hexpression⟩

end ChargeScreening
