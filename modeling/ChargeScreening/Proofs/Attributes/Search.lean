import ChargeScreening.Proofs.Attributes.Paths
import Mathlib.Data.List.Lex

/-!
# The search along a path

A path is resolved by backtracking: a key is cut off at each dot in turn, and the rest is resolved
inside the object that is found there. Here all cuts of a path are written down in one list, in the
order in which the search comes to them, and the search is the first success in this list. So it
misses no cut that leads to a value, and it is clear which one prevails.

## Main definitions

* `CutsInto` — a path is cut at some of its dots into these keys
* `Members.follow?` — the value that keys lead to, one object inside the other
* `Preferred` — which of two cuts comes first
* `cuts` — all cuts of a path
* `Members.FirstCut` — the cut that prevails among those that lead to a value

## Main results

* `mem_cuts_iff`, `pairwise_cuts` — the list holds all cuts, in the order of preference
* `Members.resolve_eq_findSome?` — the search takes the first cut in it that leads to a value
* `get?_iff_firstCut` — what a path leads to, in terms of its cuts
-/

namespace ChargeScreening

/-- A path is cut at some of its dots into these keys. Keys may be empty, and may keep dots. -/
def CutsInto (path : String) (keys : List String) : Prop :=
  keys ≠ [] ∧ ".".intercalate keys = path

/-- The value that keys lead to: all but the last one have an object under them, in which the next
key is looked up. -/
def Members.follow? : Members → List String → Option Value
  | _, [] => none
  | ms, [key] => ms.get? key
  | ms, key :: next :: keys => (ms.get? key).bind fun value =>
    match value with
    | .object inner => Members.follow? inner (next :: keys)
    | _ => none

/-- Whether a cut comes before another: where they first differ, it has the longer key. -/
def Preferred (keys others : List String) : Prop :=
  List.Lex (fun key other => other.length < key.length) keys others

/-! ### All cuts of a path -/

/-- The keys with one more character in front of the first one. -/
def lengthenFirst (c : Char) : List String → List String
  | [] => []
  | key :: keys => String.ofList (c :: key.toList) :: keys

/-- All cuts of a path. A dot goes to the key in front of it, or else ends it there. -/
def cuts : List Char → List (List String)
  | [] => [[""]]
  | c :: cs =>
    let kept := (cuts cs).map (lengthenFirst c)
    if c = '.' then kept ++ (cuts cs).map ("" :: ·) else kept

/-- The path that keys were cut from. -/
def joined (keys : List String) : List Char :=
  ['.'].intercalate (keys.map String.toList)

theorem joined_cons_cons (key next : String) (keys : List String) :
    joined (key :: next :: keys) = key.toList ++ '.' :: joined (next :: keys) := by
  rw [joined, List.map_cons, List.map_cons, List.intercalate_cons_cons, List.append_assoc]
  rfl

theorem joined_singleton (key : String) : joined [key] = key.toList := by
  simp [joined]

theorem joined_lengthenFirst (c : Char) {keys : List String} (h : keys ≠ []) :
    joined (lengthenFirst c keys) = c :: joined keys := by
  match keys with
  | [key] => rw [lengthenFirst, joined_singleton, joined_singleton, String.toList_ofList]
  | key :: next :: keys =>
    rw [lengthenFirst, joined_cons_cons, joined_cons_cons, String.toList_ofList]
    rfl

theorem cutsInto_iff {path : String} {keys : List String} :
    CutsInto path keys ↔ keys ≠ [] ∧ joined keys = path.toList := by
  rw [CutsInto, ← String.toList_inj, String.toList_intercalate]
  rfl

theorem mem_cuts_cons {c : Char} {cs : List Char} {keys : List String} :
    keys ∈ cuts (c :: cs) ↔ (∃ others ∈ cuts cs, lengthenFirst c others = keys)
      ∨ c = '.' ∧ ∃ others ∈ cuts cs, "" :: others = keys := by
  rw [cuts]
  split
  · next hdot => rw [List.mem_append, List.mem_map, List.mem_map, and_iff_right hdot]
  · next hdot => rw [List.mem_map, or_iff_left fun h => hdot h.1]

theorem ne_nil_of_mem_cuts {path : List Char} {keys : List String} (h : keys ∈ cuts path) :
    keys ≠ [] := by
  induction path generalizing keys with
  | nil =>
    rw [cuts, List.mem_singleton] at h
    rw [h]
    exact List.cons_ne_nil _ _
  | cons c cs ih =>
    obtain ⟨others, hothers, rfl⟩ | ⟨-, others, -, rfl⟩ := mem_cuts_cons.mp h
    · cases others with
      | nil => exact absurd rfl (ih hothers)
      | cons key rest => exact List.cons_ne_nil _ _
    · exact List.cons_ne_nil _ _

/-- What is in the list joins to the path again. -/
theorem joined_of_mem_cuts {path : List Char} {keys : List String} (h : keys ∈ cuts path) :
    joined keys = path := by
  induction path generalizing keys with
  | nil =>
    rw [cuts, List.mem_singleton] at h
    rw [h]
    rfl
  | cons c cs ih =>
    obtain ⟨others, hothers, rfl⟩ | ⟨hdot, others, hothers, rfl⟩ := mem_cuts_cons.mp h
    · rw [joined_lengthenFirst c (ne_nil_of_mem_cuts hothers), ih hothers]
    · obtain ⟨next, rest, rfl⟩ := List.exists_cons_of_ne_nil (ne_nil_of_mem_cuts hothers)
      rw [joined_cons_cons, ih hothers, hdot]
      rfl

/-- Keys that join to the path are in the list. -/
theorem mem_cuts_of_joined {path : List Char} {keys : List String} (hne : keys ≠ [])
    (h : joined keys = path) : keys ∈ cuts path := by
  obtain ⟨key, rest, rfl⟩ := List.exists_cons_of_ne_nil hne
  obtain ⟨first, rfl⟩ : ∃ first, key = String.ofList first := ⟨_, key.ofList_toList.symm⟩
  induction path generalizing first rest with
  | nil =>
    cases rest with
    | nil =>
      rw [joined_singleton, String.toList_ofList] at h
      rw [h, cuts]
      exact List.mem_singleton_self _
    | cons next rest =>
      rw [joined_cons_cons] at h
      cases List.append_ne_nil_of_right_ne_nil _ (List.cons_ne_nil _ _) h
  | cons c cs ih =>
    rw [mem_cuts_cons]
    cases first with
    | nil =>
      -- The first key ends here, at a dot.
      cases rest with
      | nil =>
        rw [joined_singleton, String.toList_ofList] at h
        cases h
      | cons next rest =>
        rw [joined_cons_cons, String.toList_ofList, List.nil_append] at h
        obtain ⟨hdot, hrest⟩ := List.cons.inj h
        obtain ⟨letters, rfl⟩ : ∃ letters, next = String.ofList letters :=
          ⟨_, next.ofList_toList.symm⟩
        exact .inr ⟨hdot.symm, _, ih rest letters (List.cons_ne_nil _ _) hrest, rfl⟩
    | cons d letters =>
      have hfirst : String.ofList (d :: letters) :: rest
          = lengthenFirst d (String.ofList letters :: rest) := by
        rw [lengthenFirst, String.toList_ofList]
      rw [hfirst, joined_lengthenFirst d (List.cons_ne_nil _ _)] at h
      obtain ⟨rfl, hrest⟩ := List.cons.inj h
      exact .inl ⟨_, ih rest letters (List.cons_ne_nil _ _) hrest, hfirst.symm⟩

/-- The list holds all cuts of the path and nothing else. -/
theorem mem_cuts_iff {path : String} {keys : List String} :
    keys ∈ cuts path.toList ↔ CutsInto path keys := by
  rw [cutsInto_iff]
  constructor
  · intro h
    exact ⟨ne_nil_of_mem_cuts h, joined_of_mem_cuts h⟩
  · rintro ⟨hne, hpath⟩
    exact mem_cuts_of_joined hne hpath

theorem Preferred.lengthenFirst {keys others : List String} (h : Preferred keys others) (c : Char) :
    Preferred (lengthenFirst c keys) (lengthenFirst c others) := by
  cases h with
  | nil => exact .nil
  | rel hshorter =>
    refine .rel ?_
    rw [String.length_ofList, String.length_ofList, List.length_cons, List.length_cons]
    exact Nat.succ_lt_succ hshorter
  | cons h => exact .cons h

/-- The list holds the cuts in the order of preference. -/
theorem pairwise_cuts (path : List Char) : (cuts path).Pairwise Preferred := by
  induction path with
  | nil => exact List.pairwise_singleton _ _
  | cons c cs ih =>
    have hkept : ((cuts cs).map (lengthenFirst c)).Pairwise Preferred :=
      ih.map _ fun _ _ h => h.lengthenFirst c
    rw [cuts]
    split
    · refine List.pairwise_append.mpr ⟨hkept, ih.map _ fun _ _ h => .cons h, ?_⟩
      -- A key that goes on past its first character is longer than one that ends before it.
      intro keys hkeys others hothers
      obtain ⟨shorter, hshorter, rfl⟩ := List.mem_map.mp hkeys
      obtain ⟨rest, -, rfl⟩ := List.mem_map.mp hothers
      obtain ⟨key, left, rfl⟩ := List.exists_cons_of_ne_nil (ne_nil_of_mem_cuts hshorter)
      have hlength : (String.ofList (c :: key.toList)).length = key.toList.length + 1 :=
        String.length_ofList
      exact .rel (hlength ▸ Nat.succ_pos _)
    · exact hkept

example : cuts "a.b.c".toList = [["a.b.c"], ["a.b", "c"], ["a", "b.c"], ["a", "b", "c"]] := by
  decide

/-! ### The search -/

section FindSome

variable {α β γ : Type} {xs : List α}

theorem findSome?_congr {f g : α → Option β} (h : ∀ x ∈ xs, f x = g x) :
    xs.findSome? f = xs.findSome? g := by
  induction xs with
  | nil => rfl
  | cons x xs ih =>
    obtain ⟨hx, hxs⟩ := List.forall_mem_cons.mp h
    rw [List.findSome?_cons, List.findSome?_cons, hx, ih hxs]

theorem findSome?_flatMap (f : α → List β) (g : β → Option γ) :
    (xs.flatMap f).findSome? g = xs.findSome? fun x => (f x).findSome? g := by
  induction xs with
  | nil => rfl
  | cons x xs ih =>
    rw [List.flatMap_cons, List.findSome?_append, List.findSome?_cons, ih]
    cases (f x).findSome? g <;> rfl

end FindSome

/-- A cut is the whole path, or it starts with a cut in two. -/
theorem cuts_eq (path : List Char) :
    cuts path = [String.ofList path] :: (dotCuts path).flatMap fun cut =>
      (cuts cut.2).map (String.ofList cut.1 :: ·) := by
  induction path with
  | nil => rfl
  | cons c cs ih =>
    have hkept : (cuts cs).map (lengthenFirst c) = [String.ofList (c :: cs)] ::
        ((dotCuts cs).map fun cut => (c :: cut.1, cut.2)).flatMap fun cut =>
          (cuts cut.2).map (String.ofList cut.1 :: ·) := by
      rw [ih, List.map_cons, lengthenFirst, String.toList_ofList, List.map_flatMap,
        List.flatMap_map]
      simp [lengthenFirst, Function.comp_def]
    rw [cuts, dotCuts]
    split
    · rw [hkept, List.flatMap_append, List.flatMap_singleton, List.cons_append]
    · exact hkept

namespace Members

theorem follow?_cons (ms : Members) (key : String) {keys : List String} (h : keys ≠ []) :
    ms.follow? (key :: keys) = (ms.get? key).bind fun value =>
      match value with
      | .object inner => Members.follow? inner keys
      | _ => none := by
  obtain ⟨next, rest, rfl⟩ := List.exists_cons_of_ne_nil h
  rfl

/-- The cuts of the rest of a path lead on inside the object under its first key. -/
theorem findSome?_follow?_cons (ms : Members) (key : String) (rest : List Char) :
    ((cuts rest).map (key :: ·)).findSome? ms.follow? = (ms.get? key).bind fun value =>
      match value with
      | .object inner => (cuts rest).findSome? (Members.follow? inner)
      | _ => none := by
  have hfollow : ∀ keys ∈ cuts rest, (ms.follow? ∘ (key :: ·)) keys = _ :=
    fun keys hkeys => ms.follow?_cons key (ne_nil_of_mem_cuts hkeys)
  rw [List.findSome?_map, findSome?_congr hfollow]
  cases ms.get? key with
  | none => exact List.findSome?_eq_none_iff.mpr fun keys _ => rfl
  | some value =>
    cases value with
    | object inner => rfl
    | _ => exact List.findSome?_eq_none_iff.mpr fun keys _ => rfl

/-- The search takes the first cut that leads to a value. -/
theorem resolve_eq_findSome? (ms : Members) (path : List Char) :
    ms.resolve path = (cuts path).findSome? ms.follow? := by
  induction hlength : path.length using Nat.strong_induction_on generalizing ms path with
  | _ n ih =>
    have hinside : ∀ cut ∈ dotCuts path, (ms.get? (String.ofList cut.1)).bind (inside cut.2)
        = ((cuts cut.2).map (String.ofList cut.1 :: ·)).findSome? ms.follow? := by
      intro cut hcut
      have hshorter : cut.2.length < n := hlength ▸ dotCuts_length_lt hcut
      rw [findSome?_follow?_cons]
      refine congrArg _ (funext fun value => ?_)
      cases value with
      | object inner => exact ih _ hshorter inner cut.2 rfl
      | _ => rfl
    rw [resolve_eq, cuts_eq, List.findSome?_cons, findSome?_flatMap, findSome?_congr hinside]
    rw [follow?]
    cases ms.get? (String.ofList path) <;> rfl

theorem resolve_eq_none_iff {ms : Members} {path : String} :
    ms.resolve path.toList = none ↔ ∀ keys, CutsInto path keys → ms.follow? keys = none := by
  rw [resolve_eq_findSome?, List.findSome?_eq_none_iff]
  exact forall_congr' fun keys => imp_congr_left mem_cuts_iff

/-- A cut that leads to a value and comes before every other cut that leads to one. -/
structure FirstCut (ms : Members) (path : String) (keys : List String) (value : Value) : Prop where
  cut : CutsInto path keys
  leads : ms.follow? keys = some value
  first : ∀ others other, CutsInto path others → ms.follow? others = some other → others ≠ keys →
    Preferred keys others

section FirstCut

variable {ms : Members} {path : String} {keys others : List String} {value other : Value}

/-- A path has at most one first cut. -/
theorem FirstCut.unique (h : ms.FirstCut path keys value) (hother : ms.FirstCut path others other) :
    keys = others := by
  by_contra hne
  have hasymm : Std.Asymm Preferred := inferInstanceAs (Std.Asymm (List.Lex _))
  have hbefore : Preferred keys others := h.first _ _ hother.cut hother.leads (Ne.symm hne)
  have hbehind : Preferred others keys := hother.first _ _ h.cut h.leads hne
  exact hasymm.asymm _ _ hbefore hbehind

/-- What is found is under a first cut: the cuts in front of it in the list lead nowhere. -/
theorem exists_firstCut_of_resolve (h : ms.resolve path.toList = some value) :
    ∃ keys, ms.FirstCut path keys value := by
  rw [resolve_eq_findSome?, List.findSome?_eq_some_iff] at h
  obtain ⟨before, keys, after, hcuts, hvalue, hbefore⟩ := h
  have hordered : (before ++ keys :: after).Pairwise Preferred := hcuts ▸ pairwise_cuts path.toList
  have hmem : keys ∈ cuts path.toList := by
    rw [hcuts]
    exact List.mem_append_right before List.mem_cons_self
  refine ⟨keys, mem_cuts_iff.mp hmem, hvalue, fun others other hothers hother hne => ?_⟩
  have hafter : others ∈ after := by
    have hlisted : others ∈ before ++ keys :: after := hcuts ▸ mem_cuts_iff.mpr hothers
    rcases List.mem_append.mp hlisted with hin | hin
    · rw [hbefore others hin] at hother
      cases hother
    · exact List.mem_of_ne_of_mem hne hin
  exact (List.pairwise_cons.mp (List.pairwise_append.mp hordered).2.1).1 others hafter

theorem FirstCut.resolve_eq (h : ms.FirstCut path keys value) :
    ms.resolve path.toList = some value := by
  cases hfound : ms.resolve path.toList with
  | none =>
    have hnowhere := resolve_eq_none_iff.mp hfound keys h.cut
    rw [h.leads] at hnowhere
    cases hnowhere
  | some other =>
    obtain ⟨others, hother⟩ := exists_firstCut_of_resolve hfound
    obtain rfl := h.unique hother
    exact hother.leads.symm.trans h.leads

end FirstCut

end Members

/-- **What a path leads to, in terms of its cuts.** Nothing is found just if no cut of the path
leads to a value. A value is found just if a cut leads to it that comes before every other cut which
leads to any: its first key is the longest possible, then its second one, and so on. -/
theorem get?_iff_firstCut (a : Attributes) (path : String) :
    (a.get? path = none ↔ ¬∃ keys value, CutsInto path keys ∧ a.members.follow? keys = some value)
      ∧ ∀ value, a.get? path = some value ↔ ∃ keys, a.members.FirstCut path keys value := by
  constructor
  · rw [Attributes.get?, Members.resolve_eq_none_iff]
    constructor
    · rintro h ⟨keys, value, hcut, hleads⟩
      rw [h keys hcut] at hleads
      cases hleads
    · intro h keys hcut
      rw [Option.eq_none_iff_forall_ne_some]
      exact fun value hleads => h ⟨keys, value, hcut, hleads⟩
  · intro value
    constructor
    · exact Members.exists_firstCut_of_resolve
    · rintro ⟨keys, hfirst⟩
      exact hfirst.resolve_eq

end ChargeScreening
