import ChargeScreening.Proofs.Expression.Dotted
import ChargeScreening.Proofs.Rule.Belonging
import ChargeScreening.Proofs.Rule.Consistency

/-!
# The flag of rules that read identity signals

A checked rule is flagged if a path that an author names is one of an identity signal. What is
evaluated is the text, and the text may be read with other paths: the field
`amount gt 1 or identity.score` is not a path of an identity signal, but it has one inside. Such a
rule is not flagged, so it is kept with the plain rules.

## Main definitions

* `namedPaths` — the paths that an author's clauses name
* `mentionsIdentity` — whether a path has the path of an identity signal inside
* `Expression.readsIdentity` — whether an expression reads an identity signal

## Main results

* `readsIdentity_eq_iff` — when the paths that are named and those that are read agree
* `isIdentity_of_validate` — when the flag is right, and where the rule is kept then
* `validate_hiddenIdentity` — a rule that reads an identity signal among the plain rules
-/

namespace ChargeScreening

/-! ### Paths of clauses -/

/-- The paths that clauses name, without the blanks around them. -/
def namedPaths (clauses : List DraftClause) : List String :=
  clauses.flatMap fun c => c.fields.map Text.trim

/-- An operand has the paths of the author's clause. If it is a formula, the author may have named
a blank field besides. -/
theorem map_trim_fields {place : Nat} {draft : DraftClause} {operand : Operand}
    (h : draft.operand place = .ok operand) :
    draft.fields.map Text.trim = operand.fields
      ∨ draft.fields.map Text.trim = "" :: operand.fields := by
  rw [DraftClause.operand] at h
  rw [DraftClause.fields, List.map_append]
  split at h
  · next field hfield hformula =>
    cases h
    obtain ⟨hpresent, -⟩ := Option.filter_eq_some_iff.mp hfield
    obtain ⟨written, hwritten, rfl⟩ := Option.map_eq_some_iff.mp hpresent
    rw [hwritten, formulaFields_of_not_isFormula hformula]
    exact .inl rfl
  · next hfield hformula =>
    simp only at h
    split at h
    · next op hop =>
      cases h
      have hfields (fs : List String) :
          (Operand.formula op (fs.map fun f => .field (Text.trim f))).fields
            = fs.map Text.trim := by
        rw [Operand.fields, List.filterMap_map]
        exact congrFun List.filterMap_eq_map fs
      rw [hfields]
      cases hwritten : draft.field with
      | none => exact .inl rfl
      | some written =>
        have hblank : Text.trim written = "" := by
          simpa [DraftClause.presentField?, hwritten] using hfield
        rw [Option.toList_some, List.map_singleton, hblank]
        exact .inr rfl
    · cases h
  · cases h
  · cases h

/-- The paths of a compiled expression are named by the author's clauses. -/
theorem mem_namedPaths_of_mem_fields {clauses : List DraftClause} {e : Expression}
    (h : compileExpression clauses = .ok e) {path : String} (hpath : path ∈ e.fields) :
    path ∈ namedPaths clauses := by
  obtain ⟨c, hc, hpath⟩ := List.mem_flatMap.mp hpath
  obtain ⟨draft, hdraft, place, hcompiled⟩ := exists_compiled_of_mem h hc
  refine List.mem_flatMap.mpr ⟨draft, hdraft, ?_⟩
  rcases map_trim_fields (operand_of_compileClause hcompiled) with hfields | hfields
  · rwa [hfields]
  · rw [hfields]
    exact List.mem_cons_of_mem _ hpath

/-- A compiled expression has every path that the author's clauses name, unless it is blank. -/
theorem mem_fields_of_mem_namedPaths {clauses : List DraftClause} {e : Expression}
    (h : compileExpression clauses = .ok e) {path : String} (hpath : path ∈ namedPaths clauses)
    (hne : path ≠ "") : path ∈ e.fields := by
  obtain ⟨draft, hdraft, hpath⟩ := List.mem_flatMap.mp hpath
  obtain ⟨c, hc, place, hcompiled⟩ := exists_compiled_clause_of_mem h hdraft
  refine List.mem_flatMap.mpr ⟨c, hc, ?_⟩
  rcases map_trim_fields (operand_of_compileClause hcompiled) with hfields | hfields
  · rwa [hfields] at hpath
  · rw [hfields] at hpath
    exact (List.mem_cons.mp hpath).resolve_left hne

/-! ### Identity signals -/

/-- Whether a path is one of an identity signal. -/
def startsIdentity (path : String) : Bool :=
  identityPrefix.toList.isPrefixOf path.toList

/-- Whether a path has the path of an identity signal among the words that it splits into. -/
def mentionsIdentity (path : String) : Bool :=
  (dottedWordsIn path).any startsIdentity

/-- Whether an expression reads an identity signal. -/
def Expression.readsIdentity (e : Expression) : Bool :=
  e.fields.any startsIdentity

theorem isDotted_of_startsIdentity {path : String} (h : startsIdentity path = true) :
    isDotted path = true := by
  have hfront := List.isPrefixOf_iff_prefix.mp h
  exact isDotted_iff.mpr (hfront.subset (by decide))

theorem isDotted_and_startsIdentity (path : String) :
    (isDotted path && startsIdentity path) = startsIdentity path := by
  cases hstarts : startsIdentity path with
  | false => exact Bool.and_false _
  | true => rw [isDotted_of_startsIdentity hstarts, Bool.and_true]

/-- The flag looks at the paths that are named. -/
theorem readsIdentity_iff {clauses : List DraftClause} :
    readsIdentity clauses = true ↔ ∃ path ∈ namedPaths clauses, startsIdentity path = true := by
  have hpath (path : String) : isIdentityPath path = startsIdentity (Text.trim path) := by
    rw [isIdentityPath, startsIdentity, Text.trim, String.toList_ofList]
  simp only [readsIdentity, List.any_eq_true, namedPaths, List.mem_flatMap, List.mem_map, hpath]
  grind

/-- A path of an identity signal that splits begins with a word that is one. -/
theorem mentionsIdentity_of_startsIdentity {path : String} {ts : List Token}
    (hts : tokenize path = .ok ts) (h : startsIdentity path = true) :
    mentionsIdentity path = true := by
  obtain ⟨tail, htail⟩ := List.isPrefixOf_iff_prefix.mp h
  have hspelled : path.toList = 'i' :: ("dentity.".toList ++ tail) := htail.symm
  have hread : Lexeme.read 'i' ("dentity.".toList ++ tail)
      = .ok (Lexeme.readWord 'i' ("dentity.".toList ++ tail)) := by
    have hstart : isWordStart 'i' = true := by decide
    simp [Lexeme.read, punctuation?, hstart]
  have hword : startsIdentity
      (String.ofList ('i' :: ("dentity.".toList ++ tail).takeWhile isWordChar)) = true := by
    have hall : "dentity.".toList.all isWordChar = true := by decide +kernel
    rw [List.takeWhile_append_of_pos (List.all_eq_true.mp hall), startsIdentity,
      String.toList_ofList,
      List.isPrefixOf_iff_prefix]
    exact List.prefix_append identityPrefix.toList _
  rw [mentionsIdentity, dottedWordsIn, hts]
  rw [tokenize, hspelled, tokensFrom_lexeme (by decide) hread] at hts
  obtain ⟨left, -, rfl⟩ := exists_of_map_eq_ok hts
  simp only [List.map_cons, Lexeme.readWord, dottedWords_cons, TokenKind.dotted?,
    isDotted_of_startsIdentity hword, if_true, Option.toList_some, List.singleton_append,
    List.any_cons, hword, Bool.true_or]

/-! ### Paths that are words -/

/-- A path that is a word has no other word inside. -/
theorem mentionsIdentity_of_isWord {path : String} (h : isWord path = true) :
    leavesQuoteOpen path = false ∧ mentionsIdentity path = startsIdentity path := by
  obtain ⟨ts, hts, hkinds⟩ := (Spells.word h).lexes 0
  rw [leavesQuoteOpen, mentionsIdentity, dottedWordsIn, tokenize, hts]
  refine ⟨rfl, ?_⟩
  simp only [hkinds, dottedWords_cons, dotted?_word, dottedWords_nil, List.append_nil,
    List.any_filter, isDotted_and_startsIdentity, List.any_cons, List.any_nil, Bool.or_false]

/-- No blank path is one of an identity signal. -/
theorem mentionsIdentity_empty :
    leavesQuoteOpen "" = false ∧ mentionsIdentity "" = false ∧ startsIdentity "" = false := by
  decide +kernel

/-- If the clauses name words, no path mentions an identity signal but such a path itself. -/
theorem mentionsIdentity_of_namesWords {clauses : List DraftClause}
    (h : ∀ c ∈ clauses, c.namesWords = true) {path : String} (hpath : path ∈ namedPaths clauses) :
    leavesQuoteOpen path = false ∧ mentionsIdentity path = startsIdentity path := by
  obtain ⟨c, hc, hpath⟩ := List.mem_flatMap.mp hpath
  obtain ⟨hfield, hformula⟩ := Bool.and_eq_true_iff.mp (h c hc)
  obtain ⟨written, hwritten, rfl⟩ := List.mem_map.mp hpath
  rcases List.mem_append.mp hwritten with hwritten | hwritten
  · by_cases hblank : Text.trim written = ""
    · obtain ⟨hquote, hmentions, hstarts⟩ := mentionsIdentity_empty
      rw [hblank, hmentions, hstarts]
      exact ⟨hquote, rfl⟩
    · have hpresent : c.presentField? = some (Text.trim written) := by
        rw [DraftClause.presentField?, Option.mem_toList.mp hwritten, Option.map_some,
          Option.filter_some, if_pos (decide_eq_true hblank)]
      rw [hpresent, Option.all_some, Bool.and_eq_true] at hfield
      exact mentionsIdentity_of_isWord hfield.1
  · exact mentionsIdentity_of_isWord (List.all_eq_true.mp hformula written hwritten)

/-! ### The flag -/

/-- If no path leaves a quote open, the text that clauses compile to reads an identity signal just
if a named path mentions one, and a path of an identity signal is such a path. -/
theorem readsIdentity_iff_mentions {clauses : List DraftClause} {e e' : Expression}
    (h : compileExpression clauses = .ok e) (hparse : Expression.parse e.render = .ok e')
    (hquotes : ∀ path ∈ namedPaths clauses, leavesQuoteOpen path = false) :
    (∀ path ∈ namedPaths clauses, startsIdentity path = true → mentionsIdentity path = true)
      ∧ (e'.readsIdentity = true
        ↔ ∃ path ∈ namedPaths clauses, mentionsIdentity path = true) := by
  have hfits : ∀ c ∈ e.clauses, c.value.fits c.operator = true := by
    intro c hc
    obtain ⟨draft, -, hfrom⟩ := exists_draft_of_mem h hc
    exact hfrom.fitting
  obtain ⟨hsplit, hdotted⟩ := dotted_fields_of_parse_render hparse hfits fun path hpath =>
    hquotes path (mem_namedPaths_of_mem_fields h hpath)
  have hreads : e'.readsIdentity = e.fields.any mentionsIdentity := by
    have hfilter : (e'.fields.filter isDotted).any startsIdentity = e'.readsIdentity := by
      simp only [List.any_filter, isDotted_and_startsIdentity, Expression.readsIdentity]
    rw [← hfilter, hdotted, List.any_flatMap]
    rfl
  obtain ⟨-, hmentionsNone, hstartsNone⟩ := mentionsIdentity_empty
  refine ⟨fun path hpath hstarts => ?_, ?_⟩
  · have hne : path ≠ "" := by
      rintro rfl
      rw [hstartsNone] at hstarts
      cases hstarts
    obtain ⟨ts, hts⟩ := hsplit path (mem_fields_of_mem_namedPaths h hpath hne)
    exact mentionsIdentity_of_startsIdentity hts hstarts
  · rw [hreads, List.any_eq_true]
    constructor
    · rintro ⟨path, hpath, hmentions⟩
      exact ⟨path, mem_namedPaths_of_mem_fields h hpath, hmentions⟩
    · rintro ⟨path, hpath, hmentions⟩
      have hne : path ≠ "" := by
        rintro rfl
        rw [hmentionsNone] at hmentions
        cases hmentions
      exact ⟨path, mem_fields_of_mem_namedPaths h hpath hne, hmentions⟩

/-- If no path leaves a quote open, clauses that name an identity signal read one. What they name
and what they read agree unless clauses that name none mention one inside a path. -/
theorem readsIdentity_eq_iff {clauses : List DraftClause} {e e' : Expression}
    (h : compileExpression clauses = .ok e) (hparse : Expression.parse e.render = .ok e')
    (hquotes : ∀ path ∈ namedPaths clauses, leavesQuoteOpen path = false) :
    (readsIdentity clauses = true → e'.readsIdentity = true)
      ∧ (readsIdentity clauses = e'.readsIdentity
        ↔ ∀ path ∈ namedPaths clauses,
          mentionsIdentity path = true → readsIdentity clauses = true) := by
  obtain ⟨hstarts, hmentions⟩ := readsIdentity_iff_mentions h hparse hquotes
  have hsound : readsIdentity clauses = true → e'.readsIdentity = true := by
    rw [readsIdentity_iff, hmentions]
    rintro ⟨path, hpath, hpath'⟩
    exact ⟨path, hpath, hstarts path hpath hpath'⟩
  refine ⟨hsound, fun hsame path hpath hpath' => ?_, fun hall => ?_⟩
  · rw [hsame, hmentions]
    exact ⟨path, hpath, hpath'⟩
  · refine Bool.eq_iff_iff.mpr ⟨hsound, fun hreads => ?_⟩
    obtain ⟨path, hpath, hpath'⟩ := hmentions.mp hreads
    exact hall path hpath hpath'

/-- An open quote hides what is named behind it: this flagged rule reads no identity signal. -/
example :
    let draft : RuleDraft :=
      { decision := "declined", isGlobal := true, clauses := [
          { field := some "a eq \"", operator := .gt, value := .number 1 },
          { field := some "identity.x", operator := .gt, value := .number 1 },
          { field := some "\" or d", operator := .gt, value := .number 1 }] }
    draft.validate.map (fun v =>
        (v.isIdentity, (Expression.parse v.text).toOption.map Expression.fields))
      = .ok (true, some ["a", "d"]) := by
  decide +kernel

/-- **When the flag of a checked rule is right.** If no path leaves a quote open, a flagged rule
does read an identity signal, and the flag is right unless a rule without it names a path that
mentions one. So it is right if the paths are words. A rule with the right flag that is no yellow
flag is found by the identity component if it reads an identity signal, and otherwise by the
component of its scope, and by no other. -/
theorem isIdentity_of_validate {r : RuleDraft} {v : ValidatedRule} (h : r.validate = .ok v) :
    ∃ e, Expression.parse v.text = .ok e
      ∧ ((∀ path ∈ namedPaths r.clauses, leavesQuoteOpen path = false) →
        (v.isIdentity = true → e.readsIdentity = true)
          ∧ (v.isIdentity = e.readsIdentity
            ↔ ∀ path ∈ namedPaths r.clauses, mentionsIdentity path = true → v.isIdentity = true))
      ∧ ((∀ c ∈ r.clauses, c.namesWords = true) → v.isIdentity = e.readsIdentity)
      ∧ (v.isIdentity = e.readsIdentity → r.yellowFlag = false →
        ∀ (id : String) (now : Timestamp) (charge : Groupings) (component : Component),
          charge.applies v.scope = true →
            (component.Finds charge (r.build id v now)
              ↔ component = if e.readsIdentity then .identityModule else v.scope.home)) := by
  obtain ⟨-, -, -, -, htext, hidentity⟩ := validate_eq_ok_iff.mp h
  obtain ⟨e, e', he, hrender, hparse⟩ := compileText_eq_ok htext
  rw [hrender] at hparse
  refine ⟨e', hrender ▸ hparse, fun hquotes => ?_, fun hnames => ?_,
    fun hsame hflag id now charge component happlies => ?_⟩
  · rw [hidentity]
    exact readsIdentity_eq_iff he hparse hquotes
  · have hquotes : ∀ path ∈ namedPaths r.clauses, leavesQuoteOpen path = false :=
      fun path hpath => (mentionsIdentity_of_namesWords hnames hpath).1
    rw [hidentity]
    refine (readsIdentity_eq_iff he hparse hquotes).2.mpr fun path hpath hmentions => ?_
    rw [(mentionsIdentity_of_namesWords hnames hpath).2] at hmentions
    exact readsIdentity_iff.mpr ⟨path, hpath, hmentions⟩
  · have hhome : (r.build id v now).home
        = if e'.readsIdentity then .identityModule else v.scope.home := by
      rw [Rule.home, RuleDraft.build, hflag, ← hsame]
      rfl
    rw [finds_iff, hhome, eq_comm]
    exact and_iff_left happlies

/-- The theorem on a field and a formula over it, both of identity signals. The identity component
finds the rule, and the one of its scope does not. -/
theorem isIdentity_of_validate_emailAge :
    let draft : RuleDraft :=
      { decision := "declined", companyId := some "c1", clauses := [
          { field := some " identity.email_age_days ", operator := .lt, value := .number 7 },
          { operator := .gt, value := .number 30, connective := some .or,
            formulaFields := some ["amount", "identity.phone_age_days"],
            formulaOp := some "MLP" }] }
    let v : ValidatedRule :=
      { scope := .company "c1", decision := .declined, isIdentity := true,
        text := "MLP (amount,identity.phone_age_days) gt 30 or identity.email_age_days lt 7" }
    draft.validate = .ok v ∧ (∀ c ∈ draft.clauses, c.namesWords = true)
      ∧ ∃ e, Expression.parse v.text = .ok e ∧ e.readsIdentity = true
        ∧ ∀ (id : String) (now : Timestamp) (m : FamilyMembership),
          Component.identityModule.Finds (.ofCompany "c1" m) (draft.build id v now)
            ∧ ¬Component.companyRules.Finds (.ofCompany "c1" m) (draft.build id v now) := by
  intro draft v
  have hvalid : draft.validate = .ok v := by decide +kernel
  have hnames : ∀ c ∈ draft.clauses, c.namesWords = true := by decide +kernel
  obtain ⟨e, hparse, -, hright, hfinds⟩ := isIdentity_of_validate hvalid
  have hreads : e.readsIdentity = true := (hright hnames).symm
  refine ⟨hvalid, hnames, e, hparse, hreads, fun id now m => ?_⟩
  have happlies : (Groupings.ofCompany "c1" m).applies v.scope = true := beq_self_eq_true "c1"
  have hfound (component : Component) := hfinds (hright hnames) rfl id now _ component happlies
  simp only [hfound, hreads, if_true]
  exact ⟨trivial, nofun⟩

/-- A rule that reads an identity signal without the flag. The field
`amount gt 1 or identity.score` is no path of an identity signal, but it has one inside. The rule is
found among the global rules, whatever the charge, and never by the identity component. -/
theorem validate_hiddenIdentity :
    let draft : RuleDraft :=
      { decision := "declined", isGlobal := true, clauses := [
          { field := some "amount gt 1 or identity.score", operator := .gt, value := .number 1 }] }
    let v : ValidatedRule :=
      { scope := .global, decision := .declined, isIdentity := false,
        text := "amount gt 1 or identity.score gt 1" }
    draft.validate = .ok v
      ∧ ∃ e, Expression.parse v.text = .ok e ∧ e.fields = ["amount", "identity.score"]
        ∧ e.readsIdentity = true
        ∧ ∀ (id : String) (now : Timestamp) (charge : Groupings),
          Component.globalRules.Finds charge (draft.build id v now)
            ∧ ¬Component.identityModule.Finds charge (draft.build id v now) := by
  intro draft v
  have hvalid : draft.validate = .ok v := by decide +kernel
  have hfields : (Expression.parse v.text).map Expression.fields
      = .ok ["amount", "identity.score"] := by
    decide +kernel
  obtain ⟨e, hparse, hfields⟩ := exists_of_map_eq_ok hfields
  refine ⟨hvalid, e, hparse, hfields, ?_, fun id now charge => ?_⟩
  · rw [Expression.readsIdentity, hfields]
    decide
  · rw [finds_iff, finds_iff]
    exact ⟨⟨rfl, rfl⟩, fun hfound => nomatch hfound.1⟩

end ChargeScreening
