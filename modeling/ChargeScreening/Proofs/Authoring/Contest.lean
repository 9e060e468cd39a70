import ChargeScreening.Proofs.Authoring.Interleaving
import Mathlib.Control.Monad.Basic
import Mathlib.Data.Set.Basic

/-!
# Authors who create the same rule

The check for duplicates and the call that stores a rule are different turns, and others may come
in between. What decides is the store, which looks for duplicates again when it is changed: of all
authors who create a rule of one scope and text, the first to make that call wins, and every other
one learns the id of the winner's rule, from the check or from the store.

## Main definitions

* `Contending` — the scripts of an author whose rule is neither stored nor refused yet
* `Standing` — how a contest stands: nobody has won, or someone has and the others cannot
* `Contest` — the conditions of a contest

## Main results

* `Held.step` — every event takes one standing to another
* `interleaved_authoring` — what holds however the turns fall
-/

namespace ChargeScreening

open Script

/-! ### Contenders -/

/-- The scripts of an author whose rule is neither stored nor refused yet. -/
inductive Contending (rule : Rule) : Script (Option Rule) → Prop
  | looking : Contending rule (.call (.find (.exact rule.scope))
      (unlessRepeated rule.text none (.checkpoint (keep (.insert rule) rule))))
  | checked : Contending rule (.checkpoint (keep (.insert rule) rule))
  | storing : Contending rule (keep (.insert rule) rule)

theorem Contending.outcome?_eq_none {rule : Rule} {script : Script (Option Rule)}
    (h : Contending rule script) : script.outcome? = none := by
  cases h with
  | looking => rfl
  | checked => rfl
  | storing => rfl

/-- A contender's turn as long as nobody has won: the author goes on, or wins. -/
theorem Contending.turn_of_lacks {rule : Rule} {script : Script (Option Rule)}
    (h : Contending rule script) {s : RuleStore} (hlacks : s.Lacks rule.scope rule.text)
    (hfree : s.get? rule.id = none) :
    Contending rule (script.turn false s).1 ∧ (script.turn false s).2 = s
      ∨ (script.turn false s).1 = .done (some rule) ∧ (script.turn false s).2 = s.put rule := by
  cases h with
  | looking =>
    refine .inl ⟨?_, rfl⟩
    simp only [turn, RuleStore.serve, unlessRepeated, RuleStore.checkUnique_of_lacks hlacks]
    exact .checked
  | checked => exact .inl ⟨.storing, rfl⟩
  | storing =>
    refine .inr ?_
    have hinsert : s.insert rule = .ok (s.put rule) :=
      RuleStore.insert_eq_ok_iff.mpr ⟨hfree, RuleStore.rival?_of_lacks hlacks, rfl⟩
    simp only [keep, turn, RuleStore.serve, hinsert, RuleStore.settle]
    exact ⟨trivial, trivial⟩

/-- A contender's turn after somebody has won: the author goes on, or is told so. -/
theorem Contending.turn_of_mem {rule : Rule} {script : Script (Option Rule)}
    (h : Contending rule script) {s : RuleStore} (hs : s.NoRepeats) {won : Rule}
    (hwon : won ∈ s.rules) (hscope : won.scope = rule.scope) (htext : won.text = rule.text)
    (hfree : s.get? rule.id = none) :
    (script.turn false s).2 = s ∧ (Contending rule (script.turn false s).1
      ∨ (script.turn false s).1 = .fail (.rule (.duplicateRule won.id))) := by
  cases h with
  | looking =>
    refine ⟨rfl, .inr ?_⟩
    simp only [turn, RuleStore.serve, unlessRepeated, ← hscope, ← htext,
      RuleStore.checkUnique_of_mem hs hwon]
  | checked => exact ⟨rfl, .inl .storing⟩
  | storing =>
    have hid : won.id ≠ rule.id := by
      intro heq
      rw [← heq, (s.mem_rules_iff won).mp hwon] at hfree
      cases hfree
    have hinsert : s.insert rule = .error (.conflict won.id) := by
      rw [RuleStore.insert, hfree, RuleStore.rival?_of_mem hs hwon hid hscope htext]
    simp only [keep, turn, RuleStore.serve, hinsert, RuleStore.settle]
    exact ⟨trivial, .inr trivial⟩

/-! ### Bystanders -/

/-- A call that leaves a contest alone: it looks something up, or keeps a rule of another scope or
text under an id that nobody in the contest wants. -/
def RuleCall.Spares {α : Type} (scope : Scope) (text : String) (ids : Set String) :
    RuleCall α → Prop
  | .find _ => True
  | .get _ => True
  | .insert r => (r.scope = scope → r.text ≠ text) ∧ r.id ∉ ids
  | .update _ => False
  | .delete _ => False

theorem RuleStore.serve_of_spares {α : Type} {scope : Scope} {text : String} {ids : Set String}
    {c : RuleCall α} (h : c.Spares scope text ids) (s : RuleStore) :
    (s.serve c).2 = s
      ∨ ∃ r, (s.serve c).2 = s.put r ∧ (r.scope = scope → r.text ≠ text) ∧ r.id ∉ ids := by
  cases c with
  | find q => exact .inl rfl
  | get id =>
    refine .inl ?_
    rw [RuleStore.serve]
    split
    · rfl
    · rfl
  | insert r =>
    rw [RuleStore.serve]
    rcases s.settle_cases (s.insert r) with hsame | hok
    · exact .inl hsame
    · exact .inr ⟨r, (RuleStore.insert_eq_ok_iff.mp hok).2.2, h⟩
  | update r => cases h
  | delete id => cases h

/-! ### Standings -/

section Standing

variable {ι : Type} [DecidableEq ι] {group : Set ι} {rule : ι → Rule} {scope : Scope}
  {text : String}

/-- How a contest of a group stands. -/
inductive Standing (group : Set ι) (rule : ι → Rule) (scope : Scope) (text : String)
    (w : World ι) : Prop
  /-- Nobody has won: no rule of this kind is stored, and all go on. -/
  | undecided (lacks : w.store.Lacks scope text)
      (free : ∀ i ∈ group, w.store.get? (rule i).id = none)
      (running : ∀ i ∈ group, Contending (rule i) (w.author i).script)
  /-- Somebody has won: the rule is stored, and each of the others goes on or has been told. -/
  | decided (i : ι) (winner : i ∈ group) (stored : w.store.get? (rule i).id = some (rule i))
      (ended : (w.author i).script = .done (some (rule i)))
      (free : ∀ j ∈ group, j ≠ i → w.store.get? (rule j).id = none)
      (rest : ∀ j ∈ group, j ≠ i → Contending (rule j) (w.author j).script
        ∨ (w.author j).script = .fail (.rule (.duplicateRule (rule i).id)))

/-- The rules of a group that creates one rule over and over, each under an id of its own. -/
structure Entries (group : Set ι) (rule : ι → Rule) (scope : Scope) (text : String) : Prop where
  scope : ∀ i ∈ group, (rule i).scope = scope
  text : ∀ i ∈ group, (rule i).text = text
  distinct : ∀ i ∈ group, ∀ j ∈ group, (rule i).id = (rule j).id → i = j

/-- Authors outside the group leave every standing as it is. -/
theorem Standing.step_outside {w : World ι} (h : Standing group rule scope text w) {i : ι}
    (hi : i ∉ group) (hspares : (w.author i).script.Makes
      (fun _ c => c.Spares scope text ((fun j => (rule j).id) '' group)) (w.author i).givenUp) :
    Standing group rule scope text (w.step (.turn i)) := by
  have hauthor : ∀ j ∈ group, (w.step (.turn i)).author j = w.author j := by
    intro j hj
    refine w.author_step_turn_of_ne ?_
    rintro rfl
    exact hi hj
  have hstore : (w.step (.turn i)).store = w.store
      ∨ ∃ r, (w.step (.turn i)).store = w.store.put r ∧ (r.scope = scope → r.text ≠ text)
        ∧ ∀ j ∈ group, r.id ≠ (rule j).id := by
    rcases w.store_step_cases (.turn i) with hsame | ⟨i', β, c, next, hturn, hscript, hserve⟩
    · exact .inl hsame
    · cases hturn
      rw [hscript] at hspares
      rw [hserve]
      rcases w.store.serve_of_spares hspares.1 with hsame | ⟨r, hput, hother, hid⟩
      · exact .inl hsame
      · exact .inr ⟨r, hput, hother, fun j hj heq => hid ⟨j, hj, heq.symm⟩⟩
  have hget : ∀ j ∈ group,
      (w.step (.turn i)).store.get? (rule j).id = w.store.get? (rule j).id := by
    intro j hj
    rcases hstore with hsame | ⟨r, hput, -, hid⟩
    · rw [hsame]
    · rw [hput, RuleStore.get?_put, if_neg (hid j hj)]
  cases h with
  | undecided lacks free running =>
    refine .undecided ?_ (fun j hj => ?_) fun j hj => ?_
    · rcases hstore with hsame | ⟨r, hput, hother, -⟩
      · rwa [hsame]
      · rw [hput]
        exact lacks.put hother
    · rw [hget j hj]
      exact free j hj
    · rw [hauthor j hj]
      exact running j hj
  | decided k hk stored ended free rest =>
    refine .decided k hk ?_ ?_ (fun j hj hne => ?_) fun j hj hne => ?_
    · rwa [hget k hk]
    · rwa [hauthor k hk]
    · rw [hget j hj]
      exact free j hj hne
    · rw [hauthor j hj]
      exact rest j hj hne

/-- A turn of somebody in the group takes one standing to another. -/
theorem Standing.step_inside {w : World ι} (h : Standing group rule scope text w)
    (hentries : Entries group rule scope text) (hs : w.store.NoRepeats) {i : ι} (hi : i ∈ group)
    (hup : (w.author i).givenUp = false) : Standing group rule scope text (w.step (.turn i)) := by
  have hturn := w.author_step_turn i
  rw [hup] at hturn
  have hstore : (w.step (.turn i)).store = ((w.author i).script.turn false w.store).2 := by
    rw [← hup]
    rfl
  have hother : ∀ j, j ≠ i → (w.step (.turn i)).author j = w.author j := fun j hj =>
    w.author_step_turn_of_ne hj
  cases h with
  | undecided lacks free running =>
    have hlacks : w.store.Lacks (rule i).scope (rule i).text := by
      rwa [hentries.scope i hi, hentries.text i hi]
    rcases (running i hi).turn_of_lacks hlacks (free i hi) with ⟨hgoes, hsame⟩ | ⟨hdone, hput⟩
    · rw [hsame] at hstore
      refine .undecided (by rwa [hstore]) (by rwa [hstore]) fun j hj => ?_
      by_cases hne : j = i
      · rw [hne, hturn]
        exact hgoes
      · rw [hother j hne]
        exact running j hj
    · rw [hput] at hstore
      refine .decided i hi ?_ ?_ (fun j hj hne => ?_) fun j hj hne => ?_
      · rw [hstore, RuleStore.get?_put, if_pos rfl]
      · rw [hturn, hdone]
      · have hid : (rule i).id ≠ (rule j).id := fun heq =>
          hne (hentries.distinct i hi j hj heq).symm
        rw [hstore, RuleStore.get?_put, if_neg hid]
        exact free j hj
      · rw [hother j hne]
        exact .inl (running j hj)
  | decided k hk stored ended free rest =>
    obtain ⟨hsame, hwinner, hloser⟩ : ((w.author i).script.turn false w.store).2 = w.store
        ∧ (i = k → ((w.author i).script.turn false w.store).1 = .done (some (rule k)))
        ∧ (i ≠ k → Contending (rule i) ((w.author i).script.turn false w.store).1
          ∨ ((w.author i).script.turn false w.store).1
            = .fail (.rule (.duplicateRule (rule k).id))) := by
      by_cases hik : i = k
      · -- The winner's script has ended, and the turn does nothing.
        rw [hik, ended]
        exact ⟨rfl, fun _ => rfl, fun hne => absurd rfl hne⟩
      · rcases rest i hi hik with hgoes | htold
        · have hscope := (hentries.scope k hk).trans (hentries.scope i hi).symm
          have htext := (hentries.text k hk).trans (hentries.text i hi).symm
          obtain ⟨hsame, hnext⟩ := hgoes.turn_of_mem hs (RuleStore.mem_of_get? stored) hscope htext
            (free i hi hik)
          exact ⟨hsame, fun heq => absurd heq hik, fun _ => hnext⟩
        · rw [htold]
          exact ⟨rfl, fun heq => absurd heq hik, fun _ => .inr rfl⟩
    rw [hsame] at hstore
    refine .decided k hk (by rwa [hstore]) ?_ (fun j hj hne => ?_) fun j hj hne => ?_
    · by_cases hki : k = i
      · rw [← hwinner hki.symm, hki, hturn]
      · rw [hother k hki]
        exact ended
    · rw [hstore]
      exact free j hj hne
    · by_cases hji : j = i
      · rw [hji, hturn]
        exact hloser fun heq => hne (hji.trans heq)
      · rw [hother j hji]
        exact rest j hj hne

/-- Giving up leaves every standing as it is. -/
theorem Standing.step_giveUp {w : World ι} (h : Standing group rule scope text w) (i : ι) :
    Standing group rule scope text (w.step (.giveUp i)) := by
  have hscript : ∀ j, ((w.step (.giveUp i)).author j).script = (w.author j).script := by
    intro j
    rcases w.author_step_cases (.giveUp i) j with hsame | ⟨hturn, -⟩ | ⟨-, hup⟩
    · rw [hsame]
    · cases hturn
    · rw [hup]
  cases h with
  | undecided lacks free running =>
    refine .undecided lacks free fun j hj => ?_
    rw [hscript j]
    exact running j hj
  | decided k hk stored ended free rest =>
    refine .decided k hk stored ?_ free fun j hj hne => ?_
    · rw [hscript k]
      exact ended
    · rw [hscript j]
      exact rest j hj hne

/-- What holds of a world throughout a contest. -/
structure Held (group : Set ι) (rule : ι → Rule) (scope : Scope) (text : String)
    (events : List (Event ι)) (w : World ι) : Prop where
  noRepeats : w.store.NoRepeats
  /-- Nobody in the group has given up. -/
  loyal : ∀ i ∈ group, (w.author i).givenUp = false
  /-- Whoever else takes turns leaves the contest alone. -/
  spares : ∀ i ∉ group, .turn i ∈ events → (w.author i).script.Makes
    (fun _ c => c.Spares scope text ((fun j => (rule j).id) '' group)) (w.author i).givenUp
  standing : Standing group rule scope text w

variable {events : List (Event ι)}

/-- Every event of a contest keeps what holds throughout. -/
theorem Held.step {w : World ι} (h : Held group rule scope text events w)
    (hentries : Entries group rule scope text) (hloyal : ∀ i ∈ group, .giveUp i ∉ events)
    {e : Event ι} (he : e ∈ events) : Held group rule scope text events (w.step e) where
  noRepeats := World.noRepeats_run [e] h.noRepeats
  loyal := by
    intro i hi
    rcases w.author_step_cases e i with hsame | ⟨-, hturn⟩ | ⟨hup, -⟩
    · rw [hsame]
      exact h.loyal i hi
    · rw [hturn]
      exact h.loyal i hi
    · rw [hup] at he
      exact absurd he (hloyal i hi)
  spares := fun i hi hturn => World.makes_run [e] (h.spares i hi hturn)
  standing := by
    cases e with
    | giveUp i => exact h.standing.step_giveUp i
    | turn i =>
      by_cases hi : i ∈ group
      · exact h.standing.step_inside hentries h.noRepeats hi (h.loyal i hi)
      · exact h.standing.step_outside hi (h.spares i hi he)

end Standing

/-! ### Contests -/

/-- Whether an operation creates a rule of this scope and text. -/
def Operation.Creates (scope : Scope) (text : String) (op : Operation) : Prop :=
  ∃ id r now v, op = .create id r now ∧ r.validate = .ok v ∧ v.scope = scope ∧ v.text = text

/-- The script of such an operation, ready to start. -/
theorem Operation.Creates.exists_contending {scope : Scope} {text : String} {op : Operation}
    (h : op.Creates scope text) : ∃ rule : Rule, rule.id = op.id ∧ rule.scope = scope
      ∧ rule.text = text ∧ Contending rule op.script := by
  obtain ⟨id, r, now, v, rfl, hvalid, hscope, htext⟩ := h
  refine ⟨r.build id v now, rfl, hscope, htext, ?_⟩
  rw [create_script_of_ok hvalid]
  exact .looking

section Contest

variable {ι : Type} [DecidableEq ι]

/-- A group of authors who all create a rule of one scope and text, from a world on in which no such
rule is stored. The others who act create rules of another kind, or have given up before they
start. -/
structure Contest (ops : ι → Operation) (w : World ι) (events : List (Event ι)) (scope : Scope)
    (text : String) (group : Set ι) : Prop where
  nonempty : group.Nonempty
  creates : ∀ i ∈ group, (ops i).Creates scope text
  /-- The authors of the group are about to start. -/
  ready : ∀ i ∈ group, w.author i = .of (ops i)
  /-- They do not give up. -/
  loyal : ∀ i ∈ group, .giveUp i ∉ events
  /-- They have as many turns as they need. -/
  turns : ∀ i ∈ group, (ops i).turns ≤ events.count (.turn i)
  /-- Their ids are free, and nobody else who acts is after them. -/
  free : ∀ i ∈ group, w.store.get? (ops i).id = none
  distinct : ∀ i ∈ group, ∀ j, w.Acts events j → (ops j).id = (ops i).id → j = i
  lacks : w.store.Lacks scope text
  others : ∀ j ∉ group, w.Acts events j → (ops j).isCreate = true
    ∧ ((ops j).Creates scope text → w.author j = { Author.of (ops j) with givenUp := true })

variable {ops : ι → Operation} {scope : Scope} {text : String} {group : Set ι}
  {before after : List (Event ι)}

/-- A create of a rule of another kind, or one that has been given up, leaves a contest alone. -/
theorem script_makes_spares {op : Operation} {up : Bool} {ids : Set String}
    (hcreate : op.isCreate = true) (hid : op.id ∉ ids)
    (hother : op.Creates scope text → up = true) :
    op.script.Makes (fun _ c => c.Spares scope text ids) up := by
  refine Operation.script_makes (fun _ => trivial) (fun _ => trivial) ?_ ?_ ?_
  · rintro id r now v rfl hvalid
    by_cases hkind : v.scope = scope ∧ v.text = text
    · exact .inl (hother ⟨id, r, now, v, rfl, hvalid, hkind.1, hkind.2⟩)
    · exact .inr ⟨fun hscope htext => hkind ⟨hscope, htext⟩, hid⟩
  · rintro id r now v createdAt rfl
    cases hcreate
  · rintro id rfl
    cases hcreate

theorem Contest.acts {w : World ι} (h : Contest ops w after scope text group) {i : ι}
    (hi : i ∈ group) : w.Acts after i := by
  obtain ⟨rule, -, -, -, hrule⟩ := (h.creates i hi).exists_contending
  constructor
  · obtain ⟨id, r, now, v, hop, -⟩ := h.creates i hi
    have hturns := h.turns i hi
    rw [hop, Operation.turns] at hturns
    exact List.count_pos_iff.mp (by omega)
  · rw [h.ready i hi]
    exact hrule.outcome?_eq_none

/-- The rules of the group, with which the contest begins. -/
theorem Contest.exists_held
    (h : Contest ops ((World.start ops).run before) after scope text group) :
    ∃ rule : ι → Rule, (∀ i ∈ group, (rule i).id = (ops i).id) ∧ Entries group rule scope text
      ∧ Held group rule scope text after ((World.start ops).run before) := by
  have hexists : ∀ i ∈ group, ∃ rule : Rule, rule.id = (ops i).id ∧ rule.scope = scope
      ∧ rule.text = text ∧ Contending rule (ops i).script := fun i hi =>
    (h.creates i hi).exists_contending
  have : Nonempty Rule := by
    obtain ⟨i, hi⟩ := h.nonempty
    obtain ⟨rule, -⟩ := hexists i hi
    exact ⟨rule⟩
  choose! rule hid hscope htext hcontending using hexists
  have hentries : Entries group rule scope text := by
    refine ⟨hscope, htext, fun i hi j hj heq => ?_⟩
    rw [hid i hi, hid j hj] at heq
    exact (h.distinct i hi j (h.acts hj) heq.symm).symm
  refine ⟨rule, hid, hentries, World.noRepeats_run before RuleStore.noRepeats_empty, ?_, ?_, ?_⟩
  · intro i hi
    rw [h.ready i hi]
    rfl
  · intro i hi hturn
    refine World.makes_of_acts (fun hacts => ?_) hturn
    obtain ⟨hcreate, hother⟩ := h.others i hi hacts
    have hfar : (ops i).id ∉ (fun j => (rule j).id) '' group := by
      rintro ⟨j, hj, heq⟩
      have hown : (ops i).id = (ops j).id := heq.symm.trans (hid j hj)
      rw [h.distinct j hj i hacts hown] at hi
      exact hi hj
    by_cases hkind : (ops i).Creates scope text
    · rw [hother hkind]
      exact script_makes_spares hcreate hfar fun _ => rfl
    · refine World.makes_run before ?_
      exact script_makes_spares hcreate hfar fun hkind' => absurd hkind' hkind
  · refine .undecided h.lacks (fun i hi => ?_) fun i hi => ?_
    · rw [hid i hi]
      exact h.free i hi
    · rw [h.ready i hi]
      exact hcontending i hi

/-- **Exactly one author of a contest wins**, and every other one is told the id of the winner's
rule. -/
theorem Contest.exists_winner
    (h : Contest ops ((World.start ops).run before) after scope text group) :
    let w' := ((World.start ops).run before).run after
    ∃ i ∈ group, ∃ rule : Rule, (w'.author i).script.outcome? = some (.ok (some rule))
      ∧ rule.id = (ops i).id ∧ rule.scope = scope ∧ rule.text = text
      ∧ w'.store.get? rule.id = some rule
      ∧ ∀ j ∈ group, j ≠ i →
        (w'.author j).script.outcome? = some (.error (.rule (.duplicateRule rule.id))) := by
  intro w'
  obtain ⟨rule, hid, hentries, hheld⟩ := h.exists_held
  have hheld' : Held group rule scope text after w' :=
    World.run_induction (fun w hw e he => hw.step hentries h.loyal he) hheld
  -- Whoever is in the group has used up all turns, and so does not contend any more.
  have hended : ∀ i ∈ group, ¬Contending (rule i) (w'.author i).script := by
    intro i hi hcontending
    have hturns := World.endsWithin_run after (by
      rw [h.ready i hi]
      exact (ops i).script_endsWithin)
    rw [Nat.sub_eq_zero_of_le (h.turns i hi)] at hturns
    obtain ⟨outcome, houtcome⟩ := exists_outcome_of_endsWithin_zero hturns
    rw [hcontending.outcome?_eq_none] at houtcome
    cases houtcome
  cases hheld'.standing with
  | undecided lacks free running =>
    obtain ⟨i, hi⟩ := h.nonempty
    exact absurd (running i hi) (hended i hi)
  | decided i hi stored ended free rest =>
    refine ⟨i, hi, rule i, ?_, hid i hi, hentries.scope i hi, hentries.text i hi, stored,
      fun j hj hne => ?_⟩
    · rw [ended]
      rfl
    · rcases rest j hj hne with hcontending | htold
      · exact absurd hcontending (hended j hj)
      · rw [htold]
        rfl

/-- **However the turns fall**, no stored rule repeats another, exactly one of the authors wins who
create the same rule at the same time, and an update brings no id back that has been removed. That
every stored rule is found under its own id does not take the turns: it is so in any store, by the
order of the ids that the field `RuleStore.ordered` carries along. -/
theorem interleaved_authoring (ops : ι → Operation) (before after : List (Event ι)) :
    let w := (World.start ops).run before
    let w' := w.run after
    ((∀ r ∈ w.store.rules, w.store.get? r.id = some r) ∧ w.store.NoRepeats)
      ∧ (∀ scope text group, Contest ops w after scope text group →
        ∃ i ∈ group, ∃ rule : Rule, (w'.author i).script.outcome? = some (.ok (some rule))
          ∧ rule.id = (ops i).id ∧ rule.scope = scope ∧ rule.text = text
          ∧ w'.store.get? rule.id = some rule
          ∧ ∀ j ∈ group, j ≠ i →
            (w'.author j).script.outcome? = some (.error (.rule (.duplicateRule rule.id))))
      ∧ ∀ id, w.store.get? id = none →
        (∀ i, w.Acts after i → (ops i).isCreate = true → (ops i).id ≠ id) →
        w'.store.get? id = none
          ∧ ∀ i r now, ops i = .update id r now → (w.author i).script.isDone = false →
            (w'.author i).script.isDone = false := by
  intro w w'
  refine ⟨⟨fun r hr => (w.store.mem_rules_iff r).mp hr, ?_⟩, fun scope text group h => ?_,
    fun id habsent hcreates => ?_⟩
  · exact World.noRepeats_run before RuleStore.noRepeats_empty
  · exact h.exists_winner
  · have hmakes : ∀ i, .turn i ∈ after → (w.author i).script.Makes
        (fun _ c => c.bringsIn id = false) (w.author i).givenUp := by
      intro i
      refine World.makes_of_acts fun hacts => World.makes_run before ?_
      exact Operation.script_makes_noBringsIn (hcreates i hacts)
    obtain ⟨hrun, hdone⟩ := World.get?_run_eq_none habsent hmakes
    refine ⟨hrun, fun i r now hop => hdone i (World.endsWellOnlyWith_run before ?_)⟩
    have hscript : ((World.start ops).author i).script = (Operation.update id r now).script := by
      rw [← hop]
      rfl
    rw [hscript]
    exact Operation.endsWellOnlyWith_update id r now

end Contest

/-- The theorem on two authors who create the same rule next to a third one, and on an update that
is overtaken by a delete. -/
theorem interleaved_authoring_raceAndRemoval :
    let draft (limit : Float) : RuleDraft :=
      { decision := "declined", isGlobal := true,
        clauses := [{ field := some "amount", operator := .gt, value := .number limit }] }
    let now : Timestamp := { seconds := 0 }
    let ops : Fin 5 → Operation := fun
      | 0 => .create "a" (draft 1) now
      | 1 => .create "b" (draft 1) now
      | 2 => .create "c" (draft 2) now
      | 3 => .update "c" (draft 3) now
      | 4 => .delete "c"
    let race : List (Event (Fin 5)) :=
      [.turn 0, .turn 2, .turn 1, .turn 1, .turn 2, .giveUp 2, .turn 0, .turn 1, .turn 2, .turn 0]
    let removal : List (Event (Fin 5)) :=
      [.turn 2, .turn 2, .turn 2, .turn 3, .turn 3, .turn 4, .turn 4]
    Contest ops (World.start ops) race .global "amount gt 1" {0, 1}
      ∧ (∃ i ∈ ({0, 1} : Set (Fin 5)), ∃ rule : Rule,
        (((World.start ops).run race).author i).script.outcome? = some (.ok (some rule))
          ∧ ∀ j ∈ ({0, 1} : Set (Fin 5)), j ≠ i →
            (((World.start ops).run race).author j).script.outcome?
              = some (.error (.rule (.duplicateRule rule.id))))
      ∧ ((World.start ops).run removal).store.get? "c" = none
      ∧ (((World.start ops).run removal).run [.turn 3, .turn 3]).store.get? "c" = none := by
  intro draft now ops race removal
  have hcreates : ∀ i ∈ ({0, 1} : Set (Fin 5)), (ops i).Creates .global "amount gt 1" := by
    have hvalid : (draft 1).validate = .ok ⟨.global, .declined, "amount gt 1", false⟩ := by
      decide +kernel
    rintro i (rfl | rfl)
    · exact ⟨"a", draft 1, now, _, rfl, hvalid, rfl, rfl⟩
    · exact ⟨"b", draft 1, now, _, rfl, hvalid, rfl, rfl⟩
  have hother : ¬(ops 2).Creates .global "amount gt 1" := by
    have hvalid : (draft 2).validate = .ok ⟨.global, .declined, "amount gt 2", false⟩ := by
      decide +kernel
    rintro ⟨id, r, _, v, hop, hvalid', -, htext⟩
    obtain ⟨-, rfl, -⟩ := Operation.create.inj hop
    rw [hvalid] at hvalid'
    cases hvalid'
    exact absurd htext (by decide)
  have hcontest : Contest ops (World.start ops) race .global "amount gt 1" {0, 1} := by
    refine ⟨⟨0, .inl rfl⟩, hcreates, fun _ _ => rfl, ?_, ?_, ?_, ?_, ?_, ?_⟩
    · rintro i (rfl | rfl)
      · decide
      · decide
    · rintro i (rfl | rfl)
      · decide
      · decide
    · intro i _
      exact RuleStore.get?_empty _
    · have hids : ∀ i ∈ [0, 1], ∀ j, (ops j).id = (ops i).id → j = i := by decide
      rintro i (rfl | rfl) j - hid
      · exact hids 0 (by decide) j hid
      · exact hids 1 (by decide) j hid
    · intro r hr
      cases hr
    · intro j hj hacts
      have hmine : j = 2 := by
        have hturns : ∀ j, .turn j ∈ race → j = 0 ∨ j = 1 ∨ j = 2 := by decide
        rcases hturns j hacts.1 with h | h | h
        · exact absurd (.inl h) hj
        · exact absurd (.inr h) hj
        · exact h
      rw [hmine]
      exact ⟨rfl, fun hsame => absurd hsame hother⟩
  obtain ⟨-, hrace, -⟩ := interleaved_authoring ops [] race
  obtain ⟨-, -, hremoval⟩ := interleaved_authoring ops removal [.turn 3, .turn 3]
  have habsent : ((World.start ops).run removal).store.get? "c" = none := by
    decide +kernel
  obtain ⟨i, hi, rule, hwon, -, -, -, -, hlost⟩ := hrace _ _ _ hcontest
  refine ⟨hcontest, ⟨i, hi, rule, hwon, hlost⟩, habsent, ?_⟩
  refine (hremoval "c" habsent fun i hacts hcreate => ?_).1
  have hupdate : ∀ i, .turn i ∈ [Event.turn 3, .turn 3] → (ops i).isCreate = false := by decide
  rw [hupdate i hacts.1] at hcreate
  cases hcreate

end ChargeScreening
