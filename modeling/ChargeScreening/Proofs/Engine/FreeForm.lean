import ChargeScreening.Proofs.Attributes.Paths
import ChargeScreening.Proofs.Engine.Listed

/-!
# What a caller's maps can reach

Three parts of a charge are maps that the caller fills as they like: with names that have dots, with
the names of other parts of the charge, or with those of the scores. Rules read them under the name
of the map, and there only. No attribute of a charge has a dot in its name, so a path leads through
the attribute named by its first key, and the maps are the attributes under three of these keys.

## Main definitions

* `FreeForm` — the maps that the caller fills, each with its name, content and replacement

## Main results

* `get?_scored_put` — replacing such a map changes nothing outside its name, a path into the map is
  resolved inside the map, and the scores are what was looked up
-/

namespace ChargeScreening

/-- The parts of a charge that are maps of the caller's own. -/
inductive FreeForm where
  | identity
  | aggregation
  | metadata
deriving DecidableEq, Repr

namespace FreeForm

/-- The name that rules read the map under. -/
def word : FreeForm → String
  | identity => "identity"
  | aggregation => "aggregation"
  | metadata => "metadata"

/-- The map of a charge. -/
def of (c : Charge) : FreeForm → Members
  | identity => c.identity
  | aggregation => c.aggregation
  | metadata => c.metadata

/-- The charge with another map in the place of its own. -/
def put (c : Charge) (ms : Members) : FreeForm → Charge
  | identity => { c with identity := ms }
  | aggregation => { c with aggregation := ms }
  | metadata => { c with metadata := ms }

theorem word_dotless (f : FreeForm) : '.' ∉ f.word.toList := by
  cases f <;> decide

theorem word_ne_score (f : FreeForm) : f.word ≠ "omniscore" ∧ f.word ≠ "merchant_score" := by
  cases f <;> decide

end FreeForm

namespace Charge

variable {c : Charge} {x y : Float} {f : FreeForm} {key : String}

theorem get?_word (c : Charge) (f : FreeForm) :
    c.attributes.members.get? f.word = some (.object (f.of c)) := by
  cases f <;> rw [attributes, Members.get?, lookup_filterMap] <;> simp [FreeForm.word, FreeForm.of]

theorem get?_put_of_ne (c : Charge) (ms : Members) (h : key ≠ f.word) :
    (f.put c ms).attributes.members.get? key = c.attributes.members.get? key := by
  cases f <;> rw [FreeForm.word] at h <;>
    simp only [attributes, Members.get?, lookup_filterMap, FreeForm.put, List.findSome?_cons,
      Option.bind_some, if_neg h] <;> rfl

theorem undotted_scored (c : Charge) (x y : Float) : (c.scored x y).members.Undotted := by
  intro name hdot
  have hne (word : String) (hword : '.' ∉ word.toList) : name ≠ word :=
    fun h => hword (h ▸ hdot)
  rw [c.agreesOn_scored x y name (hne _ (by decide)) (hne _ (by decide))]
  exact c.undotted_attributes name hdot

theorem get?_scored_word (c : Charge) (x y : Float) (f : FreeForm) :
    (c.scored x y).members.get? f.word = some (.object (f.of c)) := by
  rw [get?_scored, if_neg f.word_ne_score.2, if_neg f.word_ne_score.1, get?_word]

end Charge

/-- **No map of the caller's reaches another attribute.** With other content in such a map, whatever
the names in it, every path but the name of the map and those that go on with a dot after it leads
to what it led to before. A path that does go on leads to what the rest of it leads to inside the
map, and the names of the scores to the scores. -/
theorem get?_scored_put (f : FreeForm) (c : Charge) (ms : Members) (x y : Float) :
    (∀ path : String, path ≠ f.word → ¬ (f.word ++ ".").toList <+: path.toList →
      ((f.put c ms).scored x y).get? path = (c.scored x y).get? path)
      ∧ (∀ rest, (c.scored x y).get? (f.word ++ "." ++ rest) = Attributes.get? ⟨f.of c⟩ rest)
      ∧ (c.scored x y).get? "omniscore" = some (.number x)
      ∧ (c.scored x y).get? "merchant_score" = some (.number y) := by
  refine ⟨?elsewhere, ?inside, ?omniscore, ?merchantScore⟩
  case elsewhere =>
    intro path hname hbelow
    have hkey : Members.firstKey path.toList ≠ f.word := by
      intro h
      rcases Members.eq_or_prefix_of_firstKey h with h | h
      · exact hname (String.toList_inj.mp h)
      · exact hbelow (by rwa [String.toList_append])
    refine (Charge.undotted_scored _ x y).resolve_congr (c.undotted_scored x y) ?_
    rw [Charge.get?_scored, Charge.get?_scored, c.get?_put_of_ne ms hkey]
  case inside =>
    intro rest
    have hpath : (f.word ++ "." ++ rest).toList = f.word.toList ++ '.' :: rest.toList := by
      rw [String.toList_append, String.toList_append, List.append_assoc]
      rfl
    rw [Attributes.get?, hpath, (c.undotted_scored x y).resolve_cut f.word_dotless,
      String.ofList_toList, c.get?_scored_word, Option.bind_some]
    rfl
  case omniscore =>
    rw [Attributes.get?_of_notMem (by decide), c.get?_scored, if_neg (by decide), if_pos rfl]
  case merchantScore =>
    rw [Attributes.get?_of_notMem (by decide), c.get?_scored, if_pos rfl]

/-- The theorem for metadata that have the names of an attribute, of a score and of a path. -/
theorem get?_scored_put_hostile :
    let hostile : Members := [("omniscore", .number 9), ("payer.email", .text "x@y.z"),
      ("payer", .object [("email", .text "x@y.z")])]
    let charge : Charge := { companyId := "c1", amount := 5, payer := { email := some "a@b.c" } }
    let spoofed := FreeForm.metadata.put charge hostile
    ("payer.email" ≠ FreeForm.metadata.word
        ∧ ¬ (FreeForm.metadata.word ++ ".").toList <+: "payer.email".toList)
      ∧ (spoofed.scored 1 2).get? "payer.email" = (charge.scored 1 2).get? "payer.email"
      ∧ (spoofed.scored 1 2).get? "metadata.payer.email" = some (.text "x@y.z")
      ∧ (spoofed.scored 1 2).get? "omniscore" = some (.number 1) := by
  intro hostile charge spoofed
  have hname : "payer.email" ≠ FreeForm.metadata.word := by decide
  have hbelow : ¬ (FreeForm.metadata.word ++ ".").toList <+: "payer.email".toList := by decide
  obtain ⟨helsewhere, -, -, -⟩ := get?_scored_put .metadata charge hostile 1 2
  obtain ⟨-, hinside, homniscore, -⟩ := get?_scored_put .metadata spoofed [] 1 2
  refine ⟨⟨hname, hbelow⟩, helsewhere _ hname hbelow, ?_, homniscore⟩
  rw [show "metadata.payer.email" = FreeForm.metadata.word ++ "." ++ "payer.email" from rfl,
    hinside, Attributes.get?, Members.resolve_eq]
  rfl

end ChargeScreening
