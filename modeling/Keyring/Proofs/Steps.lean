/-
  Keyring.Proofs.Steps
  ────────────────────────────────
  **STEPS THAT MAY FAIL.**

  Operations are written as one step after another, each of which may fail.
  These lemmas take such a sequence apart: where it succeeds every step has,
  and where it fails one step has.  Where one step is made for each item of
  a list, it is the first step to fail whose error is given.
-/

namespace Keyring

variable {first : Except ε α} {next : α → Except ε β}

@[simp] theorem ok_bind (value : α) (next : α → Except ε β) :
    (Except.ok value >>= next) = next value := rfl

/-- Where two steps succeed, the first has succeeded, and then the second. -/
theorem bind_eq_ok {result : β} (h : first >>= next = .ok result) :
    ∃ value, first = .ok value ∧ next value = .ok result := by
  cases first with
  | error e => cases h
  | ok value => exact ⟨value, rfl, h⟩

/-- An error that neither of two steps gives is not given by both together. -/
theorem bind_ne_error {e : ε} (hfirst : first ≠ .error e) (hnext : ∀ value, next value ≠ .error e) :
    first >>= next ≠ .error e := by
  cases first with
  | error other =>
      intro h
      cases h
      exact hfirst rfl
  | ok value => exact hnext value

/-- What each of many steps preserves is preserved by all of them together. -/
theorem foldlM_preserves {motive : β → Prop} {step : β → α → Except ε β}
    (hstep : ∀ state item next, motive state → step state item = .ok next → motive next)
    {items : List α} {start result : β} (hstart : motive start)
    (h : items.foldlM step start = .ok result) : motive result := by
  induction items generalizing start with
  | nil =>
      cases h
      exact hstart
  | cons item items ih =>
      rw [List.foldlM_cons] at h
      obtain ⟨next, hnext, h⟩ := bind_eq_ok h
      exact ih (hstep start item next hstart hnext) h

theorem mapM_cons_eq (step : α → Except ε β) (item : α) (items : List α) :
    (item :: items).mapM step
      = step item >>= fun value => items.mapM step >>= fun values => .ok (value :: values) := by
  rw [List.mapM_cons]
  rfl

/-- A step for each item succeeds just if all of them do, each with its own value. -/
theorem mapM_eq_ok_iff {step : α → Except ε β} {items : List α} {values : List β} :
    items.mapM step = .ok values ↔ items.map step = values.map .ok := by
  induction items generalizing values with
  | nil =>
      show Except.ok [] = Except.ok values ↔ [] = values.map Except.ok
      cases values <;> simp
  | cons item items ih =>
      rw [mapM_cons_eq, List.map_cons]
      cases values with
      | nil =>
          cases step item with
          | error e => simp [Bind.bind, Except.bind]
          | ok value => cases items.mapM step <;> simp [Bind.bind, Except.bind]
      | cons value values =>
          rw [List.map_cons, List.cons.injEq, ← ih]
          cases step item with
          | error e => simp [Bind.bind, Except.bind]
          | ok value' => cases items.mapM step <;> simp [Bind.bind, Except.bind]

/-- A step for each item fails just as the first step does that fails. -/
theorem mapM_eq_error_iff {step : α → Except ε β} {items : List α} {e : ε} :
    items.mapM step = .error e ↔ ∃ before item after, items = before ++ item :: after
      ∧ (∀ other ∈ before, ∃ value, step other = .ok value) ∧ step item = .error e := by
  induction items with
  | nil =>
      constructor
      · intro h
        cases h
      · rintro ⟨before, item, after, h, -⟩
        cases before <;> cases h
  | cons item items ih =>
      rw [mapM_cons_eq]
      constructor
      · intro h
        cases hitem : step item with
        | error e' =>
            rw [hitem] at h
            cases h
            exact ⟨[], item, items, rfl, by simp, hitem⟩
        | ok value =>
            rw [hitem, ok_bind] at h
            cases hrest : items.mapM step with
            | ok values => rw [hrest] at h; cases h
            | error e' =>
                rw [hrest] at h
                cases h
                obtain ⟨before, bad, after, rfl, hbefore, hbad⟩ := ih.1 hrest
                refine ⟨item :: before, bad, after, rfl, ?_, hbad⟩
                intro other hother
                rcases List.mem_cons.1 hother with rfl | hother
                · exact ⟨value, hitem⟩
                · exact hbefore other hother
      · rintro ⟨before, bad, after, hsplit, hbefore, hbad⟩
        cases before with
        | nil =>
            obtain ⟨rfl, rfl⟩ := List.cons.inj hsplit
            rw [hbad]
            rfl
        | cons first before =>
            obtain ⟨rfl, rfl⟩ := List.cons.inj hsplit
            obtain ⟨value, hfirst⟩ := hbefore item List.mem_cons_self
            have hrest := ih.2 ⟨before, bad, after, rfl,
              fun other hother => hbefore other (List.mem_cons_of_mem item hother), hbad⟩
            rw [hfirst, ok_bind, hrest]
            rfl

theorem map_eq_ok {f : α → β} {result : β} (h : first.map f = .ok result) :
    ∃ value, first = .ok value ∧ f value = result := by
  cases first with
  | error e => cases h
  | ok value => exact ⟨value, rfl, Except.ok.inj h⟩

theorem map_ne_error {f : α → β} {e : ε} (hfirst : first ≠ .error e) : first.map f ≠ .error e := by
  cases first with
  | error other =>
      intro h
      cases h
      exact hfirst rfl
  | ok value =>
      intro h
      cases h

end Keyring
