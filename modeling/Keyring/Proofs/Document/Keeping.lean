/-
  Keyring.Proofs.Document.Keeping
  ────────────────────────────────
  **WHAT LOOPS AND RECORDS KEEP.**

  A property of a state that each member, or each field, keeps is one of
  whatever the whole object or array gives, on any text and not only on
  what was printed.

  Main results:
    * `Yields.membersUpTo`, `Yields.elementsUpTo` — the loops;
    * `yields_read` — a record, given as an object or as an array.
-/
import Keyring.Proofs.Document.Reading

namespace Keyring.Document

/-! ## §1. Loops. -/

namespace Reader

theorem Yields.membersUpTo {member : σ → String → Reader σ} {P : σ → Prop}
    (hmember : ∀ state name, P state → Yields (member state name) P) (bound : List Char) :
    ∀ (isFirst : Bool) (state : σ), P state →
      Yields (membersUpTo member bound isFirst state) P := by
  -- on the bound, which every turn of the loop makes shorter by one
  induction bound with
  | nil =>
      intro isFirst state _ text y rest hy
      cases hy
  | cons c bound ih =>
      intro isFirst state hstate
      refine (yields_true (another .curly isFirst)).bind fun more _ => ?_
      cases more with
      | false => exact yields_pure hstate
      | true =>
          refine (yields_true memberName).bind fun name _ => ?_
          exact (hmember state name hstate).bind fun next hnext => ih false next hnext

theorem Yields.elementsUpTo {element : Reader α} {P : α → Prop} (h : Yields element P)
    (bound : List Char) :
    ∀ isFirst : Bool, Yields (elementsUpTo element bound isFirst) fun xs => ∀ x ∈ xs, P x := by
  induction bound with
  -- a loop that has used up its bound gives nothing
  | nil =>
      intro isFirst text y rest hy
      cases hy
  | cons c bound ih =>
      intro isFirst
      refine (yields_true (another .square isFirst)).bind fun more _ => ?_
      cases more with
      | false => exact yields_pure (by simp)
      | true =>
          refine h.bind fun x hx => ?_
          refine (ih false).bind fun xs hxs => ?_
          exact yields_pure (List.forall_mem_cons.2 ⟨hx, hxs⟩)

end Reader

open Reader

/-! ## §2. Records. -/

namespace Record

/-- Fields read in their order keep what each of them keeps. -/
theorem yields_inOrder {fields : List (Field σ)} {P : σ → Prop}
    (hfields : ∀ field ∈ fields, ∀ state, P state → Yields (field.read state) P) :
    ∀ (isFirst : Bool) (count : Nat) (state : σ), P state →
      Yields (inOrder fields isFirst count state) fun result => P result.2 := by
  induction fields with
  | nil =>
      intro isFirst count state hstate
      exact yields_pure hstate
  | cons field fields ih =>
      intro isFirst count state hstate
      refine (yields_true (another .square isFirst)).bind fun more _ => ?_
      cases more with
      -- an array may end early, and the draft is then as the fields so far have left it
      | false => exact yields_pure hstate
      | true =>
          refine (hfields field List.mem_cons_self state hstate).bind fun next hnext => ?_
          exact ih (fun f hf => hfields f (List.mem_cons_of_mem _ hf)) false (count + 1) next hnext

/-- A member keeps what every field keeps. -/
theorem yields_member {r : Record σ α} {P : σ → Prop}
    (hfields : ∀ field ∈ r.fields, ∀ state, P state → Yields (field.read state) P)
    (state : σ) (name : String) (hstate : P state) : Yields (r.member state name) P := by
  unfold member
  cases hfield : r.fields.find? fun field => field.name == name with
  -- an unknown member is read over
  | none =>
      refine (yields_true colon).bind fun _ _ => ?_
      exact (yields_true ignored).bind fun _ _ => yields_pure hstate
  | some field =>
      show Yields (if field.isGiven state = true then _ else _) P
      by_cases hgiven : field.isGiven state = true
      -- a member given twice is refused, and so gives no draft at all
      · rw [if_pos hgiven]
        exact yields_reject _ P
      · rw [if_neg hgiven]
        exact (yields_true colon).bind fun _ _ =>
          hfields field (List.mem_of_find?_eq_some hfield) state hstate

/-- **A property of drafts that every field keeps holds of whatever is completed.** -/
theorem yields_read {r : Record σ α} {P : σ → Prop} {Q : α → Prop} (hdraft : P r.draft)
    (hfields : ∀ field ∈ r.fields, ∀ state, P state → Yields (field.read state) P)
    (hcomplete : ∀ state x, P state → r.complete state = .ok x → Q x) : Yields r.read Q := by
  -- the same record may be written as an object or as an array
  have hmembers : Yields r.ofMembers Q := by
    have hloop : Yields (members r.member r.draft) P := fun text =>
      Yields.membersUpTo (yields_member hfields) text true r.draft hdraft text
    refine hloop.bind fun state hstate => ?_
    cases h : r.complete state with
    | ok x => exact yields_pure (hcomplete state x hstate h)
    | error name => exact yields_reject _ Q
  have helements : Yields r.ofElements Q := by
    refine (yields_inOrder hfields true 0 r.draft hdraft).bind fun result hresult => ?_
    dsimp only
    cases h : r.complete result.2 with
    | ok x => exact yields_pure (hcomplete result.2 x hresult h)
    | error name => exact yields_reject _ Q
  intro text y rest hy
  unfold read at hy
  split at hy
  · exact hmembers.enclosed .curly _ y rest hy
  · exact helements.enclosed .square _ y rest hy
  · exact yields_wrongType r.expected Q _ y rest hy

end Record

end Keyring.Document
