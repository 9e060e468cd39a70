import ChargeScreening.Attributes
import Mathlib.Data.List.TakeWhile

/-!
# Where a path leads

A path that is no key itself is cut at its dots, and every cut is a candidate. Among members whose
names have no dots the search is not needed: a cut can only lead on if its first part is free of
dots, and a path has one cut of that kind, the one at its first dot.

## Main definitions

* `Members.Undotted` — nothing goes by a name with a dot

## Main results

* `Members.Undotted.resolve_cut` — a path leads through the member under its first key only
* `Members.Undotted.resolve_congr` — members with the same value under the first key of a path
  resolve it alike
-/

namespace ChargeScreening

/-! ### Cuts -/

theorem dotCuts_of_notMem {path : List Char} (h : '.' ∉ path) : dotCuts path = [] := by
  induction path with
  | nil => rfl
  | cons c cs ih =>
    rw [List.mem_cons, not_or] at h
    rw [dotCuts, if_neg (Ne.symm h.1), ih h.2]
    rfl

/-- The cut at the first dot comes last. -/
theorem dotCuts_append {key : List Char} (rest : List Char) (hkey : '.' ∉ key) :
    dotCuts (key ++ '.' :: rest)
      = (dotCuts rest).map (fun cut => (key ++ '.' :: cut.1, cut.2)) ++ [(key, rest)] := by
  induction key with
  | nil =>
    rw [List.nil_append, dotCuts, if_pos rfl]
    rfl
  | cons c cs ih =>
    rw [List.mem_cons, not_or] at hkey
    rw [List.cons_append, dotCuts, if_neg (Ne.symm hkey.1), ih hkey.2, List.map_append,
      List.map_map]
    rfl

namespace Members

/-- What a path leads to inside a value. -/
def inside (path : List Char) : Value → Option Value
  | .object inner => Members.resolve inner path
  | _ => none

theorem resolve_eq (ms : Members) (path : List Char) :
    ms.resolve path = (ms.get? (String.ofList path)).or
      ((dotCuts path).findSome? fun cut =>
        (ms.get? (String.ofList cut.1)).bind (inside cut.2)) := by
  conv => rhs; rw [← List.attach_map_subtype_val (dotCuts path), List.findSome?_map]
  rw [resolve]
  cases ms.get? (String.ofList path) with
  | some value => rfl
  | none =>
    rw [Option.none_or]
    refine congrArg (List.findSome? · _) (funext fun cut => ?_)
    rw [Function.comp_apply]
    cases ms.get? (String.ofList cut.1.1) with
    | none => rfl
    | some value => cases value <;> rfl

/-- A path without dots is a key. -/
theorem resolve_of_notMem (ms : Members) {path : List Char} (h : '.' ∉ path) :
    ms.resolve path = ms.get? (String.ofList path) := by
  rw [resolve_eq, dotCuts_of_notMem h]
  exact Option.or_none

end Members

namespace Attributes

variable {a : Attributes} {path key rest : String}

/-- A path without dots is a key. -/
theorem get?_of_notMem (h : '.' ∉ path.toList) : a.get? path = a.members.get? path := by
  rw [get?, Members.resolve_of_notMem _ h, String.ofList_toList]

/-- A path with one dot that is no key itself leads into the object under its first part. -/
theorem get?_dotted {inner : Members} (hpath : path.toList = key.toList ++ '.' :: rest.toList)
    (hkey : '.' ∉ key.toList) (hrest : '.' ∉ rest.toList) (hnone : a.members.get? path = none)
    (hinner : a.members.get? key = some (.object inner)) : a.get? path = inner.get? rest := by
  have hlast : Members.resolve inner rest.toList = inner.get? rest :=
    get?_of_notMem (a := ⟨inner⟩) hrest
  rw [get?, Members.resolve_eq, String.ofList_toList, hnone, Option.none_or, hpath,
    dotCuts_append _ hkey, dotCuts_of_notMem hrest, List.map_nil, List.nil_append,
    List.findSome?_singleton, String.ofList_toList, hinner, Option.bind_some, Members.inside, hlast]

end Attributes

/-! ### Names without dots -/

namespace Members

/-- The part of a path before its first dot. -/
def firstKey (path : List Char) : String :=
  String.ofList (path.takeWhile (· ≠ '.'))

/-- Nothing goes by a name with a dot. -/
def Undotted (ms : Members) : Prop :=
  ∀ name, '.' ∈ name.toList → ms.get? name = none

theorem firstKey_of_notMem {path : List Char} (h : '.' ∉ path) :
    firstKey path = String.ofList path := by
  rw [firstKey, List.takeWhile_eq_self_iff.mpr]
  intro c hc
  exact decide_eq_true fun hdot => h (hdot ▸ hc)

theorem firstKey_append {key : List Char} (rest : List Char) (hkey : '.' ∉ key) :
    firstKey (key ++ '.' :: rest) = String.ofList key := by
  rw [firstKey, List.takeWhile_append_of_pos, List.takeWhile_cons]
  · simp
  · intro c hc
    exact decide_eq_true fun hdot => hkey (hdot ▸ hc)

/-- A path is its first key, or goes on with a dot after it. -/
theorem eq_or_prefix_of_firstKey {path : List Char} {key : String} (h : firstKey path = key) :
    path = key.toList ∨ key.toList ++ ['.'] <+: path := by
  subst h
  by_cases hdot : '.' ∈ path
  · obtain ⟨key, rest, rfl, hkey⟩ := List.eq_append_cons_of_mem hdot
    refine Or.inr ⟨rest, ?_⟩
    rw [firstKey_append rest hkey, String.toList_ofList, List.append_assoc, List.singleton_append]
  · rw [firstKey_of_notMem hdot, String.toList_ofList]
    exact Or.inl rfl

section Undotted

variable {ms ns : Members} {path key : List Char}

theorem Undotted.get?_eq_none (h : ms.Undotted) (hdot : '.' ∈ path) :
    ms.get? (String.ofList path) = none :=
  h _ (by rwa [String.toList_ofList])

/-- **Among names without dots, a path with a dot leads through the member under its first key and
through no other**, whatever the names and values inside. -/
theorem Undotted.resolve_cut (h : ms.Undotted) (hkey : '.' ∉ key) (rest : List Char) :
    ms.resolve (key ++ '.' :: rest) = (ms.get? (String.ofList key)).bind (inside rest) := by
  have hlonger : ((dotCuts rest).map fun cut => (key ++ '.' :: cut.1, cut.2)).findSome?
      (fun cut => (ms.get? (String.ofList cut.1)).bind (inside cut.2)) = none := by
    rw [List.findSome?_eq_none_iff]
    intro cut hcut
    obtain ⟨later, -, rfl⟩ := List.mem_map.mp hcut
    rw [h.get?_eq_none (List.mem_append_right _ List.mem_cons_self), Option.bind_none]
  rw [resolve_eq, h.get?_eq_none (List.mem_append_right _ List.mem_cons_self), Option.none_or,
    dotCuts_append rest hkey, List.findSome?_append, hlonger, Option.none_or,
    List.findSome?_singleton]

/-- Members that have the same value under the first key of a path resolve it alike. -/
theorem Undotted.resolve_congr (hms : ms.Undotted) (hns : ns.Undotted)
    (h : ms.get? (firstKey path) = ns.get? (firstKey path)) :
    ms.resolve path = ns.resolve path := by
  by_cases hdot : '.' ∈ path
  · obtain ⟨key, rest, rfl, hkey⟩ := List.eq_append_cons_of_mem hdot
    rw [firstKey_append rest hkey] at h
    rw [hms.resolve_cut hkey, hns.resolve_cut hkey, h]
  · rw [firstKey_of_notMem hdot] at h
    rw [ms.resolve_of_notMem hdot, ns.resolve_of_notMem hdot, h]

end Undotted

end Members

end ChargeScreening
