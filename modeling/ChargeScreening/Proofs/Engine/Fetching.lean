import ChargeScreening.Engine.Basic

/-!
# What is fetched

Faults, delays and the moment at which the caller gives up settle whether the candidates of the
components are there in the end, and nothing else settles which ones they are. At the same time or
in turn, if nobody gives up they can be had just if every call that is made for them passes.

## Main definitions

* `Stores.candidates` — the candidates of a component
* `Fault.Passes` — a call that is answered within its limit
* `Engine.fetchAll` — all fetches of a decision
* `Engine.Fetchable` — whether all candidates can be had

## Main results

* `Stores.mem_candidates` — where candidates come from
* `eq_map_of_fetchAll` — what is fetched
* `exists_fetchAll_iff` — when everything can be fetched if nobody gives up
* `exists_of_fetchAll_eq_error` — where a failure comes from
-/

namespace ChargeScreening

/-- The candidates of a component; none when no store is asked. -/
def Stores.candidates (s : Stores) (scope : Groupings) (keys : SearchKeys) (c : Component) :
    List Candidate :=
  (s.fetch? scope keys c).getD []

/-- A candidate is a stored rule or a stored list entry. -/
theorem Stores.mem_candidates {s : Stores} {scope : Groupings} {keys : SearchKeys} {c : Component}
    {candidate : Candidate} (h : candidate ∈ s.candidates scope keys c) :
    (∃ r ∈ s.rules.rules, candidate = r.candidate)
      ∨ ∃ entry ∈ s.lists.entries, candidate = entry.candidate := by
  rw [candidates, fetch?] at h
  split at h
  · split at h
    · cases h
    · obtain ⟨entry, hentry, rfl⟩ := List.mem_map.mp h
      exact .inr ⟨entry, (List.mem_filter.mp (List.mem_filter.mp hentry).1).1, rfl⟩
  · cases hquery : Selection.forComponent? c scope with
    | none =>
      rw [hquery] at h
      cases h
    | some q =>
      rw [hquery] at h
      obtain ⟨r, hr, rfl⟩ := List.mem_map.mp h
      exact .inl ⟨r, (List.mem_filter.mp hr).1, rfl⟩

/-! ### Single fetches -/

/-- A call that is answered within its limit. -/
def Fault.Passes (f : Fault) (limitMs : Nat) : Prop :=
  f.failure = none ∧ f.delayMs ≤ limitMs

namespace Engine

variable {e : Engine} {s : Stores} {w : Circumstances} {scope : Groupings} {keys : SearchKeys}
  {start : Nat} {c : Component} {components : List Component}

/-- What is fetched for a component is its candidates. -/
theorem eq_candidates_of_fetch {found : List Candidate}
    (h : (e.fetch s w scope keys start c).value = .ok found) :
    found = s.candidates scope keys c := by
  rw [fetch] at h
  rw [Stores.candidates]
  cases hasked : s.fetch? scope keys c with
  | none =>
    rw [hasked] at h
    exact (Except.ok.inj h).symm
  | some answer =>
    rw [hasked] at h
    obtain ⟨-, -, -, heq⟩ := await_ok_iff.mp h
    exact heq.symm

/-- If nobody gives up, the candidates of a component can be had whenever the call for them
passes. -/
theorem exists_fetch_iff (hcancel : w.cancelAt = none) :
    (∃ found, (e.fetch s w scope keys start c).value = .ok found)
      ↔ (s.fetch? scope keys c ≠ none → (w.fetch c).Passes e.settings.fetchTimeoutMs) := by
  rw [fetch]
  cases hasked : s.fetch? scope keys c with
  | none =>
    constructor
    · intro _ h
      exact absurd rfl h
    · intro _
      exact ⟨[], rfl⟩
  | some answer =>
    simp only [await_ok_iff, hcancel]
    constructor
    · rintro ⟨found, -, hlimit, hfailure, -⟩ _
      exact ⟨hfailure, hlimit⟩
    · intro h
      obtain ⟨hfailure, hlimit⟩ := h (Option.some_ne_none answer)
      exact ⟨answer, rfl, hlimit, hfailure, rfl⟩

/-! ### All fetches -/

theorem earliestFailure?_eq_none_iff {α : Type} {rs : List (Timed (Except ServiceError α))} :
    earliestFailure? rs = none ↔ ∀ r ∈ rs, ∃ a, r.value = .ok a := by
  induction rs with
  | nil =>
    constructor
    · intro _ r hr
      cases hr
    · intro _
      rfl
  | cons r rs ih =>
    rw [earliestFailure?, List.forall_mem_cons]
    cases hr : r.value with
    | ok a =>
      constructor
      · intro h
        exact ⟨⟨a, rfl⟩, ih.mp h⟩
      · rintro ⟨-, h⟩
        exact ih.mpr h
    | error err =>
      constructor
      · intro h
        split at h
        · cases h
        · cases h
        · next hok => cases hok
      · rintro ⟨⟨a, ha⟩, -⟩
        cases ha

theorem exists_of_earliestFailure? {α : Type} {rs : List (Timed (Except ServiceError α))}
    {failure : Timed ServiceError} (h : earliestFailure? rs = some failure) :
    ∃ r ∈ rs, r.value = .error failure.value := by
  induction rs generalizing failure with
  | nil => cases h
  | cons r rs ih =>
    rw [earliestFailure?] at h
    cases hr : r.value with
    | ok a =>
      rw [hr] at h
      obtain ⟨r', hr', hvalue⟩ := ih h
      exact ⟨r', List.mem_cons_of_mem r hr', hvalue⟩
    | error err =>
      rw [hr] at h
      cases hlater : earliestFailure? rs with
      | none =>
        simp only [hlater, Option.some.injEq] at h
        exact ⟨r, List.mem_cons_self .., by rw [hr, ← h]⟩
      | some later =>
        simp only [hlater, Option.some.injEq] at h
        split at h
        · exact ⟨r, List.mem_cons_self .., by rw [hr, ← h]⟩
        · obtain ⟨r', hr', hvalue⟩ := ih hlater
          exact ⟨r', List.mem_cons_of_mem r hr', by rw [hvalue, ← h]⟩

theorem mapM_value_eq_ok {α : Type} {f : Component → Timed (Except ServiceError α)}
    {g : Component → α} {found : List α} (h : (components.map f).mapM Timed.value = .ok found)
    (hg : ∀ c a, (f c).value = .ok a → a = g c) : found = components.map g := by
  induction components generalizing found with
  | nil => exact (Except.ok.inj h).symm
  | cons c components ih =>
    rw [List.map_cons, List.mapM_cons] at h
    cases hc : (f c).value with
    | error err =>
      rw [hc] at h
      cases h
    | ok a =>
      cases hrest : (components.map f).mapM Timed.value with
      | error err =>
        rw [hc, hrest] at h
        cases h
      | ok rest =>
        rw [hc, hrest] at h
        rw [List.map_cons, ← hg c a hc, ← ih hrest]
        exact (Except.ok.inj h).symm

theorem exists_mapM_value {α : Type} {rs : List (Timed (Except ServiceError α))}
    (h : ∀ r ∈ rs, ∃ a, r.value = .ok a) : ∃ found, rs.mapM Timed.value = .ok found := by
  induction rs with
  | nil => exact ⟨[], rfl⟩
  | cons r rs ih =>
    obtain ⟨⟨a, ha⟩, hrest⟩ := List.forall_mem_cons.mp h
    obtain ⟨rest, hrest⟩ := ih hrest
    refine ⟨a :: rest, ?_⟩
    rw [List.mapM_cons, ha, hrest]
    rfl

theorem eq_map_of_fetchTogether {found : List (List Candidate)}
    (h : (e.fetchTogether s w scope keys start components).value = .ok found) :
    found = components.map (s.candidates scope keys) := by
  rw [fetchTogether] at h
  split at h
  · cases h
  · exact mapM_value_eq_ok h fun c found hc => eq_candidates_of_fetch hc

theorem eq_map_of_fetchInTurn {found : List (List Candidate)}
    (h : (e.fetchInTurn s w scope keys start components).value = .ok found) :
    found = components.map (s.candidates scope keys) := by
  induction components generalizing start found with
  | nil => exact (Except.ok.inj h).symm
  | cons c components ih =>
    rw [fetchInTurn] at h
    cases hc : (e.fetch s w scope keys start c).value with
    | error err =>
      simp only [hc] at h
      cases h
    | ok first =>
      simp only [hc] at h
      cases hrest : (e.fetchInTurn s w scope keys (e.fetch s w scope keys start c).time
          components).value with
      | error err =>
        rw [hrest] at h
        cases h
      | ok rest =>
        rw [hrest] at h
        rw [List.map_cons, ← eq_candidates_of_fetch hc, ← ih hrest]
        exact (Except.ok.inj h).symm

/-- Fetching fails with the failure of one of the calls. -/
theorem exists_of_fetchTogether_eq_error {err : ServiceError}
    (h : (e.fetchTogether s w scope keys start components).value = .error err) :
    ∃ passed c left start', components = passed ++ c :: left
      ∧ (e.fetch s w scope keys start' c).value = .error err := by
  rw [fetchTogether] at h
  split at h
  · next failure hfailure =>
    obtain ⟨r, hr, hvalue⟩ := exists_of_earliestFailure? hfailure
    obtain ⟨c, hc, rfl⟩ := List.mem_map.mp hr
    obtain ⟨passed, left, hcomponents⟩ := List.append_of_mem hc
    rw [← Except.error.inj h]
    exact ⟨passed, c, left, start, hcomponents, hvalue⟩
  · next hnone =>
    obtain ⟨found, hfound⟩ := exists_mapM_value (earliestFailure?_eq_none_iff.mp hnone)
    rw [hfound] at h
    cases h

theorem exists_of_fetchInTurn_eq_error {err : ServiceError}
    (h : (e.fetchInTurn s w scope keys start components).value = .error err) :
    ∃ passed c left start', components = passed ++ c :: left
      ∧ (e.fetch s w scope keys start' c).value = .error err := by
  induction components generalizing start with
  | nil => cases h
  | cons c components ih =>
    rw [fetchInTurn] at h
    cases hc : (e.fetch s w scope keys start c).value with
    | error err' =>
      simp only [hc] at h
      rw [← Except.error.inj h]
      exact ⟨[], c, components, start, rfl, hc⟩
    | ok first =>
      simp only [hc] at h
      cases hrest : (e.fetchInTurn s w scope keys (e.fetch s w scope keys start c).time
          components).value with
      | error err' =>
        rw [hrest] at h
        obtain ⟨passed, c', left, start', rfl, hfailed⟩ := ih (hrest.trans h)
        exact ⟨c :: passed, c', left, start', rfl, hfailed⟩
      | ok rest =>
        rw [hrest] at h
        cases h

/-- Whether all candidates can be had: every call that is made for them passes. -/
def Fetchable (e : Engine) (s : Stores) (w : Circumstances) (scope : Groupings) (keys : SearchKeys)
    (components : List Component) : Prop :=
  ∀ c ∈ components, s.fetch? scope keys c ≠ none → (w.fetch c).Passes e.settings.fetchTimeoutMs

theorem exists_fetchTogether_iff (hcancel : w.cancelAt = none) :
    (∃ found, (e.fetchTogether s w scope keys start components).value = .ok found)
      ↔ e.Fetchable s w scope keys components := by
  have hall : earliestFailure? (components.map (e.fetch s w scope keys start)) = none
      ↔ e.Fetchable s w scope keys components := by
    rw [earliestFailure?_eq_none_iff, List.forall_mem_map]
    exact forall₂_congr fun c _ => exists_fetch_iff hcancel
  rw [fetchTogether, ← hall]
  cases hfailure : earliestFailure? (components.map (e.fetch s w scope keys start)) with
  | some failure =>
    constructor
    · rintro ⟨found, h⟩
      cases h
    · intro h
      cases h
  | none =>
    constructor
    · intro _
      rfl
    · intro _
      exact exists_mapM_value (earliestFailure?_eq_none_iff.mp hfailure)

theorem exists_fetchInTurn_iff (hcancel : w.cancelAt = none) :
    (∃ found, (e.fetchInTurn s w scope keys start components).value = .ok found)
      ↔ e.Fetchable s w scope keys components := by
  rw [Fetchable]
  induction components generalizing start with
  | nil =>
    constructor
    · intro _ c hc
      cases hc
    · intro _
      exact ⟨[], rfl⟩
  | cons c components ih =>
    rw [List.forall_mem_cons, ← exists_fetch_iff hcancel, fetchInTurn]
    cases hc : (e.fetch s w scope keys start c).value with
    | error err =>
      constructor
      · rintro ⟨found, h⟩
        cases h
      · rintro ⟨⟨found, h⟩, -⟩
        cases h
    | ok first =>
      have hrest := @ih (e.fetch s w scope keys start c).time
      constructor
      · rintro ⟨found, h⟩
        refine ⟨⟨first, rfl⟩, hrest.mp ?_⟩
        cases hothers : (e.fetchInTurn s w scope keys (e.fetch s w scope keys start c).time
            components).value with
        | error err =>
          simp only [hothers] at h
          cases h
        | ok others => exact ⟨others, rfl⟩
      · rintro ⟨-, h⟩
        obtain ⟨others, hothers⟩ := hrest.mpr h
        refine ⟨first :: others, ?_⟩
        simp only [hothers]
        rfl

/-! ### At the same time or in turn -/

/-- All fetches of a decision, at the same time or in turn. -/
def fetchAll (e : Engine) : Stores → Circumstances → Groupings → SearchKeys → Nat →
    List Component → Timed Fetched :=
  if e.settings.concurrentFetch then e.fetchTogether else e.fetchInTurn

theorem eq_map_of_fetchAll {found : List (List Candidate)}
    (h : (e.fetchAll s w scope keys start components).value = .ok found) :
    found = components.map (s.candidates scope keys) := by
  rw [fetchAll] at h
  split at h
  · exact eq_map_of_fetchTogether h
  · exact eq_map_of_fetchInTurn h

theorem exists_of_fetchAll_eq_error {err : ServiceError}
    (h : (e.fetchAll s w scope keys start components).value = .error err) :
    ∃ passed c left start', components = passed ++ c :: left
      ∧ (e.fetch s w scope keys start' c).value = .error err := by
  rw [fetchAll] at h
  split at h
  · exact exists_of_fetchTogether_eq_error h
  · exact exists_of_fetchInTurn_eq_error h

theorem exists_fetchAll_iff (hcancel : w.cancelAt = none) :
    (∃ found, (e.fetchAll s w scope keys start components).value = .ok found)
      ↔ e.Fetchable s w scope keys components := by
  rw [fetchAll]
  split
  · exact exists_fetchTogether_iff hcancel
  · exact exists_fetchInTurn_iff hcancel

end Engine

end ChargeScreening
