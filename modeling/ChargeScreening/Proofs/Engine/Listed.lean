import ChargeScreening.Proofs.Attributes.Paths
import ChargeScreening.Proofs.Engine.Outcome
import Mathlib.Data.List.Forall2

/-!
# What lists report

A list entry is looked at twice. It is fetched if it is keyed on a search key of the charge, which
is an equality of texts, and it is then evaluated like a clause, which resolves a path and brings
both sides to a common type. On the paths that entries are searched by, a charge has a text or
nothing, so that the two come to the same: nothing is fetched that does not match, and nothing that
matches is missed.

## Main definitions

* `Charge.textUnder?` — what a charge has on the paths that entries are searched by
* `ListEntry.isDue` — whether an entry is to be reported, without mention of search keys
* `ListResult` — the result of a list component, in terms of the stored entries

## Main results

* `candidates_eq_due` — the entries that are fetched are those that are due
* `listResult_of_decide` — every decision reports them, and no errors
-/

namespace ChargeScreening

/-! ### What entries are compared with -/

/-- What is found under a name among the parts that are present. -/
theorem lookup_filterMap {α β : Type} (f : α → Option (String × β)) (xs : List α) (name : String) :
    (xs.filterMap f).lookup name
      = xs.findSome? fun x => (f x).bind fun p => if name = p.1 then some p.2 else none := by
  induction xs with
  | nil => rfl
  | cons x rest ih =>
    rw [List.filterMap_cons, List.findSome?_cons]
    cases f x with
    | none => exact ih
    | some p =>
      rw [List.lookup_cons, Option.bind_some, ih]
      by_cases h : name = p.1
      · simp [h]
      · simp [h, beq_eq_false_iff_ne.mpr h]

/-- A path into named texts leads to the text under its second key. -/
theorem Attributes.get?_namedText {a : Attributes} {parts : NamedTexts} {path key rest : String}
    (hpath : path.toList = key.toList ++ '.' :: rest.toList) (hkey : '.' ∉ key.toList)
    (hrest : '.' ∉ rest.toList) (hnone : a.members.get? path = none)
    (hparts : a.members.get? key = some parts.toValue) :
    a.get? path = parts.findSome? fun part =>
      if rest = part.1 then part.2.map Value.text else none := by
  rw [get?_dotted hpath hkey hrest hnone hparts, Members.get?, lookup_filterMap]
  congr 1
  funext part
  cases part.2 with
  | none => simp
  | some text => rfl

namespace Charge

/-- The text a charge has on a path that entries are searched by. -/
def textUnder? (c : Charge) (field : String) : Option String :=
  match field with
  | "payer.email" => c.payer.email
  | "payment_method.card_hash" => c.paymentMethod.cardHash
  | "payer.phone" => c.payer.phone
  | "company_id" => some c.companyId
  | _ => none

variable {c : Charge} {a : Attributes} {x y : Float} {field : String}

theorem get?_companyId (c : Charge) :
    c.attributes.members.get? "company_id" = some (.text c.companyId) := by
  rw [attributes, Members.get?, lookup_filterMap]
  simp

theorem get?_payer (c : Charge) :
    c.attributes.members.get? "payer" = some c.payer.parts.toValue := by
  rw [attributes, Members.get?, lookup_filterMap]
  simp

theorem get?_paymentMethod (c : Charge) :
    c.attributes.members.get? "payment_method" = some c.paymentMethod.parts.toValue := by
  rw [attributes, Members.get?, lookup_filterMap]
  simp

/-- No attribute goes by a dotted path. -/
theorem undotted_attributes (c : Charge) : c.attributes.members.Undotted := by
  intro name hdot
  have hne (word : String) (hword : '.' ∉ word.toList) : name ≠ word :=
    fun h => hword (h ▸ hdot)
  rw [attributes, Members.get?, lookup_filterMap]
  simp [hne]

theorem get?_scored (c : Charge) (x y : Float) (key : String) :
    (c.scored x y).members.get? key
      = if key = "merchant_score" then some (.number y)
        else if key = "omniscore" then some (.number x) else c.attributes.members.get? key := by
  rw [scored, Attributes.set, Members.get?_set, Attributes.set, Members.get?_set]

/-- Attributes that are those of a charge, but perhaps for its scores. -/
def AgreesOn (c : Charge) (a : Attributes) : Prop :=
  ∀ key, key ≠ "omniscore" → key ≠ "merchant_score" →
    a.members.get? key = c.attributes.members.get? key

theorem agreesOn_attributes (c : Charge) : c.AgreesOn c.attributes :=
  fun _ _ _ => rfl

theorem agreesOn_scored (c : Charge) (x y : Float) : c.AgreesOn (c.scored x y) := by
  intro key homni hmerchant
  rw [get?_scored, if_neg hmerchant, if_neg homni]

/-- The scores are no part of the named texts of a charge. -/
theorem AgreesOn.get?_namedText (h : c.AgreesOn a) {parts : NamedTexts} {path key rest : String}
    (hpath : path.toList = key.toList ++ '.' :: rest.toList) (hkey : '.' ∉ key.toList)
    (hrest : '.' ∉ rest.toList)
    (hscores : ∀ score ∈ ["omniscore", "merchant_score"], path ≠ score ∧ key ≠ score)
    (hparts : c.attributes.members.get? key = some parts.toValue) :
    a.get? path = parts.findSome? fun part =>
      if rest = part.1 then part.2.map Value.text else none := by
  obtain ⟨⟨hpathOmni, hkeyOmni⟩, ⟨hpathMerchant, hkeyMerchant⟩, -⟩ :=
    List.forall_mem_cons.mp hscores |>.imp_right List.forall_mem_cons.mp
  have hdot : '.' ∈ path.toList := hpath ▸ List.mem_append_right _ List.mem_cons_self
  refine Attributes.get?_namedText hpath hkey hrest ?_ ?_
  · rw [h path hpathOmni hpathMerchant, c.undotted_attributes path hdot]
  · rw [h key hkeyOmni hkeyMerchant, hparts]

/-- On the paths that entries are searched by there is a text or nothing, with or without scores. -/
theorem AgreesOn.get?_eq (h : c.AgreesOn a) (hfield : field ∈ searchableFields) :
    a.get? field = (c.textUnder? field).map .text := by
  simp only [searchableFields, List.mem_cons, List.not_mem_nil, or_false] at hfield
  rcases hfield with rfl | rfl | rfl | rfl
  · have hpath : "payer.email".toList = "payer".toList ++ '.' :: "email".toList := rfl
    rw [h.get?_namedText hpath (by decide) (by decide) (by decide) c.get?_payer, textUnder?]
    cases hemail : c.payer.email <;> simp [Payer.parts, hemail]
  · have hpath : "payment_method.card_hash".toList
        = "payment_method".toList ++ '.' :: "card_hash".toList := rfl
    rw [h.get?_namedText hpath (by decide) (by decide) (by decide) c.get?_paymentMethod, textUnder?]
    cases hhash : c.paymentMethod.cardHash <;> simp [PaymentMethod.parts, hhash]
  · have hpath : "payer.phone".toList = "payer".toList ++ '.' :: "phone".toList := rfl
    rw [h.get?_namedText hpath (by decide) (by decide) (by decide) c.get?_payer, textUnder?]
    cases hphone : c.payer.phone <;> simp [Payer.parts, hphone]
  · rw [Attributes.get?_of_notMem (by decide), h _ (by decide) (by decide), c.get?_companyId,
      textUnder?, Option.map_some]

end Charge

/-! ### Entries that are due -/

/-- Whether an entry is to be reported by a list for a charge: its scope applies, it is keyed on a
path that entries are searched by, its value is not empty, and it matches. -/
def ListEntry.isDue (kind : ListKind) (scope : Groupings) (a : Attributes) (e : ListEntry) : Bool :=
  e.kind == kind && scope.applies e.scope && searchableFields.contains e.field && e.value != ""
    && (e.matches a).toOption == some true

/-- The entries of one channel that are to be reported by a list, in stored order. -/
def ListStore.due (s : ListStore) (kind : ListKind) (scope : Groupings) (a : Attributes)
    (isTest : Bool) : List ListEntry :=
  s.entries.filter fun e => e.isTest == isTest && e.isDue kind scope a

/-- The result of a list component on the attributes of a charge, in terms of the stored entries. -/
structure ListResult (s : ListStore) (kind : ListKind) (scope : Groupings) (a : Attributes)
    (result : ComponentResult) : Prop where
  matched : result.matched = (s.due kind scope a false).map fun e => ⟨e.id, e.decision⟩
  testMatched : result.testMatched = (s.due kind scope a true).map fun e => ⟨e.id, e.decision⟩
  errors : result.errors = []

section Entries

variable {c : Charge} {a : Attributes} {e : ListEntry}

theorem toOption_matches_eq_some_true_iff :
    (e.matches a).toOption = some true ↔ e.matches a = .ok true := by
  cases e.matches a with
  | error err => simp [Except.toOption]
  | ok b => simp [Except.toOption]

/-- Two texts are equal for the operator just if they are the same. -/
theorem compareValue_text_eq_text (s t : String) :
    compareValue (.text s) .eq (.text t) = .ok (decide (s = t)) := by
  have horder : (Operator.eq.holds (some (textOrder s t))) = decide (s = t) := by
    rw [textOrder]
    by_cases h : s = t
    · simp [h, Operator.holds]
    · by_cases hlt : s < t
      · simp [h, hlt, Operator.holds]
      · simp [h, hlt, Operator.holds]
  rw [← horder]
  rfl

/-- An entry on a path on which there is a text or nothing matches just if its value is the text. -/
theorem ListEntry.matches_eq_ok_true_iff {text? : Option String}
    (hget : a.get? e.field = text?.map .text) : e.matches a = .ok true ↔ text? = some e.value := by
  rw [ListEntry.matches, Clause.eval, clause, Operand.value, hget]
  cases text? with
  | none => simp
  | some text =>
    simp only [Option.map_some, compareValue_text_eq_text, Except.map, Bool.bne_false,
      Option.some.injEq, Except.ok.injEq, decide_eq_true_eq]

/-- A charge has the key of an entry just if the entry is on a path that is searched by and its
value is the text there, which is not empty. -/
theorem Charge.covers_searchKeys_iff : (searchKeys c.attributes).covers e = true
    ↔ e.field ∈ searchableFields ∧ e.value ≠ "" ∧ c.textUnder? e.field = some e.value := by
  have hkey (field : String) (hfield : field ∈ searchableFields) (text : String) :
      (c.attributes.get? field).bind Value.searchText? = some text
        ↔ text ≠ "" ∧ c.textUnder? field = some text := by
    rw [c.agreesOn_attributes.get?_eq hfield]
    cases c.textUnder? field with
    | none => simp
    | some t =>
      rw [Option.map_some, Option.bind_some, Value.searchText?, Option.some.injEq]
      split
      · next hempty =>
        rw [String.isEmpty_iff] at hempty
        subst hempty
        exact ⟨fun h => absurd h (by simp), fun h => absurd h.2.symm h.1⟩
      · next hempty =>
        rw [String.isEmpty_iff] at hempty
        rw [Option.some.injEq]
        exact ⟨fun h => ⟨h ▸ hempty, h⟩, And.right⟩
  rw [SearchKeys.covers, List.contains_iff_mem, searchKeys, List.mem_filterMap]
  constructor
  · rintro ⟨field, hfield, h⟩
    obtain ⟨text, htext, heq⟩ := Option.map_eq_some_iff.mp h
    cases heq
    exact ⟨hfield, (hkey e.field hfield e.value).mp htext⟩
  · rintro ⟨hfield, htext⟩
    exact ⟨e.field, hfield, Option.map_eq_some_iff.mpr
      ⟨e.value, (hkey e.field hfield e.value).mpr htext, rfl⟩⟩

/-- The keys of a charge cover the entries on searchable paths that match and are not empty. -/
theorem Charge.AgreesOn.covers_iff (h : c.AgreesOn a) :
    (searchKeys c.attributes).covers e = true
      ↔ e.field ∈ searchableFields ∧ e.value ≠ "" ∧ e.matches a = .ok true := by
  rw [covers_searchKeys_iff]
  refine and_congr_right fun hfield => and_congr_right fun _ => ?_
  rw [e.matches_eq_ok_true_iff (h.get?_eq hfield)]

theorem ListEntry.matches_of_isDue {kind : ListKind} {scope : Groupings}
    (h : e.isDue kind scope a = true) : e.matches a = .ok true := by
  rw [isDue, Bool.and_eq_true] at h
  exact toOption_matches_eq_some_true_iff.mp (eq_of_beq h.2)

end Entries

/-! ### Fetching -/

/-- The candidates of a list component, also when the store is not asked for want of keys. -/
theorem Stores.candidates_of_listKind (s : Stores) (scope : Groupings) (keys : SearchKeys)
    {component : Component} {kind : ListKind} (hkind : component.listKind? = some kind) :
    s.candidates scope keys component
      = ((s.lists.find kind keys).filter fun e => scope.applies e.scope).map
        ListEntry.candidate := by
  rw [candidates, fetch?, hkind]
  cases keys with
  | nil =>
    have hnone : s.lists.find kind [] = [] := by
      rw [ListStore.find, List.filter_eq_nil_iff]
      intro e _
      simp [SearchKeys.covers]
    rw [hnone]
    rfl
  | cons key keys => rfl

/-- **Fetching by search keys equals matching the whole list**: the candidates of a list component
are the entries of the list that are due, in stored order. -/
theorem candidates_eq_due (s : Stores) (scope : Groupings) {c : Charge} {a : Attributes}
    (h : c.AgreesOn a) {component : Component} {kind : ListKind}
    (hkind : component.listKind? = some kind) :
    s.candidates scope (searchKeys c.attributes) component
      = (s.lists.entries.filter (ListEntry.isDue kind scope a)).map ListEntry.candidate := by
  rw [s.candidates_of_listKind scope _ hkind, ListStore.find, List.filter_filter]
  congr 1
  refine List.filter_congr fun e _ => Bool.eq_iff_iff.mpr ?_
  simp only [ListEntry.isDue, Bool.and_eq_true, h.covers_iff, beq_iff_eq, bne_iff_ne,
    List.contains_iff_mem, toOption_matches_eq_some_true_iff]
  tauto

/-! ### Results -/

section Evaluate

variable {a : Attributes} {entries : List ListEntry} (h : ∀ e ∈ entries, e.matches a = .ok true)

include h

/-- Entries that all match are reported in the channel that they belong to. -/
theorem matchesOf_map_candidate (isTest : Bool) :
    matchesOf isTest (entries.map ListEntry.candidate) a
      = (entries.filter fun e => e.isTest == isTest).map fun e => ⟨e.id, e.decision⟩ := by
  rw [matchesOf, List.filterMap_map]
  induction entries with
  | nil => rfl
  | cons e rest ih =>
    obtain ⟨he, hrest⟩ := List.forall_mem_cons.mp h
    rw [List.filterMap_cons, List.filter_cons, ih hrest]
    by_cases htest : e.isTest = isTest
    · simp [ListEntry.candidate, he, htest]
    · simp [ListEntry.candidate, htest]

theorem errorsOf_map_candidate (component : Component) :
    errorsOf component (entries.map ListEntry.candidate) a = [] := by
  rw [errorsOf, List.filterMap_map, List.filterMap_eq_nil_iff]
  intro e he
  simp only [Function.comp_apply, ListEntry.candidate, h e he]

end Evaluate

/-- A list component that is evaluated on its candidates reports the entries that are due. -/
theorem listResult_evaluate (s : Stores) (scope : Groupings) {c : Charge} {a : Attributes}
    (h : c.AgreesOn a) {entry : ConsoleEntry} {kind : ListKind}
    (hkind : entry.component.listKind? = some kind) :
    ListResult s.lists kind scope a (entry.evaluate
      (s.candidates scope (searchKeys c.attributes) entry.component) a) := by
  have hmatches : ∀ e ∈ s.lists.entries.filter (ListEntry.isDue kind scope a),
      e.matches a = .ok true :=
    fun e he => e.matches_of_isDue (List.mem_filter.mp he).2
  rw [candidates_eq_due s scope h hkind]
  have hdue (isTest : Bool) : matchesOf isTest
      ((s.lists.entries.filter (ListEntry.isDue kind scope a)).map ListEntry.candidate) a
        = (s.lists.due kind scope a isTest).map fun e => ⟨e.id, e.decision⟩ := by
    rw [matchesOf_map_candidate hmatches, List.filter_filter, ListStore.due]
  exact ⟨hdue false, hdue true, errorsOf_map_candidate hmatches _⟩

/-- **Every list component reports exactly the entries of its list that match the charge**, in
stored order and by channel, and no errors: whatever is stored and whatever the scores are. When
nothing goes wrong there is such a decision. -/
theorem listResult_of_decide (e : Engine) (s : Stores) (w : Engine.Circumstances)
    (charge : Charge) :
    (∀ r, e.decide s w charge = .ok r → List.Forall₂
      (fun entry result => result.component = entry.component
        ∧ ∀ kind, entry.component.listKind? = some kind → ListResult s.lists kind
          (s.groupings charge) (charge.scored r.omniscore r.merchantScore) result)
      (e.console charge).entries r.verdict.components)
      ∧ ((e.console charge).components.Nodup → Undisturbed w e.settings.fetchTimeoutMs →
        ∃ r, e.decide s w charge = .ok r) := by
  constructor
  · intro r hr
    obtain ⟨-, rfl⟩ := Engine.decide_eq_ok hr
    rw [Engine.screening_verdict, Verdict.ofResults, List.forall₂_map_right_iff, List.forall₂_same]
    intro entry _
    exact ⟨rfl, fun kind hkind =>
      listResult_evaluate s _ (charge.agreesOn_scored _ _) hkind⟩
  · intro hconsole hw
    exact Engine.exists_decide_of_undisturbed hw (check_eq_ok_iff.mpr hconsole)

/-- The theorem on two lists, with entries on each of the four paths that are searched by. The
company belongs to a merchant-category family and to families of companies. Of the black list three
entries are met by their texts, one for everyone and two under a family. The others apply to another
company or family, differ in case, or stand on a path that is not searched by. Of the gray list one
entry is on trial. -/
theorem listResult_of_decide_blackAndGray :
    let black (id field value : String) (scope : Scope) : ListEntry :=
      { id, kind := .black, field, value, decision := .declined, scope }
    let gray (id : String) (isTest : Bool) : ListEntry :=
      { id, kind := .gray, field := "company_id", value := "c1", decision := .declined, isTest }
    let s : Stores :=
      { lists := ⟨[black "p" "payer.phone" "+52" (.familyMcc "m"),
          black "a" "payer.email" "a@b.c" .global, black "b" "payer.email" "a@b.c" (.company "c2"),
          black "c" "payer.email" "A@B.C" .global, black "d" "currency" "MXN" .global,
          black "h" "payment_method.card_hash" "0f" (.familyCompany "f"),
          black "i" "payment_method.card_hash" "0f" (.familyCompany "m"),
          gray "g" true, gray "k" false]⟩
        families := ⟨[("c1", ⟨some "m", ["e", "f"]⟩)]⟩ }
    let charge : Charge :=
      { companyId := "c1", amount := 5, currency := some "MXN",
        payer := { email := some "a@b.c", phone := some "+52" },
        paymentMethod := { cardHash := some "0f" } }
    ((Engine.console {} charge).components.Nodup ∧ Undisturbed {} 2000)
      ∧ ∃ r, Engine.decide {} s {} charge = .ok r
        ∧ List.Forall₂ (fun entry result => result.component = entry.component
            ∧ ∀ kind, entry.component.listKind? = some kind → ListResult s.lists kind
              (s.groupings charge) (charge.scored r.omniscore r.merchantScore) result)
          (Engine.console {} charge).entries r.verdict.components
        ∧ r.verdict.components.flatMap ComponentResult.matched
          = [⟨"p", .declined⟩, ⟨"a", .declined⟩, ⟨"h", .declined⟩, ⟨"k", .declined⟩]
        ∧ r.verdict.components.flatMap ComponentResult.testMatched = [⟨"g", .declined⟩] := by
  intro black gray s charge
  have hconsole : (Engine.console {} charge).components.Nodup := by decide
  have hw : Undisturbed {} 2000 := undisturbed_default 2000
  have hlists := listResult_of_decide {} s {} charge
  obtain ⟨r, hr⟩ := hlists.2 hconsole hw
  have hreported : (Engine.decide {} s {} charge).map (fun r =>
      (r.verdict.components.flatMap ComponentResult.matched,
        r.verdict.components.flatMap ComponentResult.testMatched))
      = .ok ([⟨"p", .declined⟩, ⟨"a", .declined⟩, ⟨"h", .declined⟩, ⟨"k", .declined⟩],
          [⟨"g", .declined⟩]) := by
    decide +kernel
  rw [hr] at hreported
  obtain ⟨hmatched, htestMatched⟩ := Prod.mk.inj (Except.ok.inj hreported)
  exact ⟨⟨hconsole, hw⟩, r, hr, hlists.1 r hr, hmatched, htestMatched⟩

end ChargeScreening
