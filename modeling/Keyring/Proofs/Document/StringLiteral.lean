/-
  Keyring.Proofs.Document.StringLiteral
  ────────────────────────────────
  **A WRITTEN STRING IS READ AS WHAT WAS WRITTEN.**

  Whichever of its spellings `writtenChar` picks for a character, it is
  one.  So a written string is spelled as a string that says what was
  written, and is read like any other: up to its own closing mark, not to
  an escaped one, and not before it.

  Main results:
    * `spells_written` — what is written spells what was to be written;
    * `takes_written`, `takes_string` — it is read whole.
-/
import Keyring.Proofs.Document.Spelling

namespace Keyring.Document

open Reader

/-! ## §1. One character. -/

theorem hexDigit_hexDigit : ∀ n, n < 16 → HexDigit (hexDigit n) n := by
  unfold HexDigit
  decide

/-- A control character is escaped by its number. -/
theorem spells_control {c : Char} (h : c.toNat < 0x20) :
    SpellsPiece (.unit c.toNat)
      ['\\', 'u', '0', '0', hexDigit (c.toNat / 16), hexDigit (c.toNat % 16)] := by
  have hzero : HexDigit '0' 0 := .inl rfl
  have := SpellsPiece.hex hzero hzero (hexDigit_hexDigit (c.toNat / 16) (by omega))
    (hexDigit_hexDigit (c.toNat % 16) (by omega))
  rwa [show ((0 * 16 + 0) * 16 + c.toNat / 16) * 16 + c.toNat % 16 = c.toNat by omega] at this

/-- **A character is written in one of its spellings.** -/
theorem spells_writtenChar (c : Char) : SpellsChar c (writtenChar c) := by
  unfold writtenChar
  split
  · next h => subst h; exact .short .quotationMark
  split
  · next h => subst h; exact .short .backslash
  split
  · next h => subst h; exact .short .backspace
  split
  · next h => subst h; exact .short .formFeed
  split
  · next h => subst h; exact .short .lineFeed
  split
  · next h => subst h; exact .short .carriageReturn
  split
  · next h => subst h; exact .short .tab
  split
  · next hcontrol => exact .number (spells_control hcontrol)
  · next hquote hslash _ _ _ _ _ hcontrol =>
    -- a character that stands for itself is neither the mark nor the backslash
    exact .raw (by omega) hquote hslash

/-! ## §2. Whole strings. -/

/-- **What is written is a string that says what was written.** -/
theorem spells_written (cs : List Char) : SpellsText cs (cs.flatMap writtenChar) := by
  induction cs with
  | nil => exact .nil
  | cons c cs ih => exact .cons (spells_writtenChar c) ih

/-- A string is taken up to its closing mark, from behind the first. -/
theorem takes_written (s : String) :
    Takes stringBody (s.toList.flatMap writtenChar ++ ['"']) s :=
  takes_stringBody (spells_written s.toList)

/-- **A written string is taken whole.** -/
theorem takes_string (s : String) : Takes string (written s) s :=
  ⟨fun rest => (takes_written s).reads rest,
    .cons ⟨.endInValue, rfl, rfl⟩ (takes_written s).starved⟩

/-- A space before a value is passed over. -/
theorem Reader.Takes.behindSpace {reader : Reader α} {text : List Char} {x : α}
    (h : Takes reader text x) (hne : text ≠ [])
    (hspace : ∀ rest, reader (' ' :: rest) = reader rest) : Takes reader (' ' :: text) x where
  reads := fun rest => (hspace _).trans (h.reads rest)
  starved := by
    refine .cons (h.starved [] text rfl hne) fun front back htext hback => ?_
    show (reader (' ' :: front)).TooShort
    rw [hspace front]
    exact h.starved front back htext hback

theorem takes_string_space (s : String) : Takes string (' ' :: written s) s :=
  (takes_string s).behindSpace (List.cons_ne_nil _ _) fun _ => rfl

end Keyring.Document
