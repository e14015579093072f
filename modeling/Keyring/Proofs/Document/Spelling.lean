/-
  Keyring.Proofs.Document.Spelling
  ────────────────────────────────
  **STRINGS ARE READ FROM EVERY SPELLING, AND FROM NOTHING ELSE.**

  The grammar spells a string by parts, and two parts may be one
  character.  One turn of the loop takes the spelling of one character: so
  the unit of the proof is not a part of a string but a character, and
  spellings are told from what is said to how it may be written.

      SpellsChar c  — the character by itself, by a short escape, by its
                      number, or above U+FFFF by the numbers of the two
                      halves that stand for it in UTF-16
      SpellsText cs — one character after another

  A string that is only passed over may be any string of the grammar.

  Main results:
    * `character_sound`, `SpellsChar.takes` — what one turn takes;
    * `takes_stringBody` — a string is taken to its end, and not before it;
    * `stringBody_iff_spellsText` — strings that are wanted, by characters;
    * `spellsText_iff`, `stringBody_iff` — the same by parts;
    * `ignoredString_iff` — strings that are passed over.
-/
import Keyring.Proofs.Document.Decoding
import Keyring.Proofs.Document.Reading

namespace Keyring.Document

open Reader

/-! ## §1. Escapes. -/

theorem shortEscape?_eq_some {letter c : Char} :
    shortEscape? letter = some c ↔ ShortEscape letter c := by
  constructor
  · intro h
    unfold shortEscape? at h
    split at h
    · next hl => cases h; subst hl; exact .quotationMark
    split at h
    · next hl => cases h; subst hl; exact .backslash
    split at h
    · next hl => cases h; subst hl; exact .slash
    split at h
    · next hl => cases h; subst hl; exact .backspace
    split at h
    · next hl => cases h; subst hl; exact .formFeed
    split at h
    · next hl => cases h; subst hl; exact .lineFeed
    split at h
    · next hl => cases h; subst hl; exact .carriageReturn
    split at h
    · next hl => cases h; subst hl; exact .tab
    · cases h
  · intro h
    cases h <;> rfl

/-- The digits of one range, told by their numbers. -/
theorem toNat_range {first last c : Char} (h : (decide (first ≤ c) && decide (c ≤ last)) = true) :
    first.toNat ≤ c.toNat ∧ c.toNat ≤ last.toNat := by
  simp only [Bool.and_eq_true, decide_eq_true_eq] at h
  exact ⟨h.1, h.2⟩

theorem hexDigit_decimal : ∀ n, n < 10 → HexDigit (Char.ofNat (48 + n)) n := by
  unfold HexDigit
  decide

theorem hexDigit_lower : ∀ n, n < 6 → HexDigit (Char.ofNat (97 + n)) (n + 10) := by
  unfold HexDigit
  decide

theorem hexDigit_upper : ∀ n, n < 6 → HexDigit (Char.ofNat (65 + n)) (n + 10) := by
  unfold HexDigit
  decide

/-- What is so for the digits of both tables is so for every digit. -/
theorem HexDigit.map_eq {f : Char → α} {g : Nat → α} {c : Char} {n : Nat} (h : HexDigit c n)
    (tables : ∀ n, n < 16 → "0123456789abcdef".toList[n]?.map f = some (g n)
      ∧ "0123456789ABCDEF".toList[n]?.map f = some (g n)) : f c = g n := by
  rcases h with h | h
  · have hdigit := (tables n (List.getElem?_eq_some_iff.1 h).1).1
    rw [h] at hdigit
    exact Option.some.inj hdigit
  · have hdigit := (tables n (List.getElem?_eq_some_iff.1 h).1).2
    rw [h] at hdigit
    exact Option.some.inj hdigit

/-- A character is known by its number. -/
theorem eq_ofNat {c : Char} {n : Nat} (h : c.toNat = n) : c = Char.ofNat n := by
  rw [← h, Char.ofNat_toNat]

theorem hexValue?_eq_some {c : Char} {n : Nat} : hexValue? c = some n ↔ HexDigit c n := by
  constructor
  · intro h
    unfold hexValue? at h
    split at h
    · next hrange =>
      have hc : 48 ≤ c.toNat ∧ c.toNat ≤ 57 := toNat_range hrange
      have hn : c.toNat - 48 = n := Option.some.inj h
      rw [eq_ofNat (show c.toNat = 48 + n by omega)]
      exact hexDigit_decimal n (by omega)
    split at h
    · next hrange =>
      have hc : 97 ≤ c.toNat ∧ c.toNat ≤ 102 := toNat_range hrange
      have hn : c.toNat - 97 + 10 = n := Option.some.inj h
      rw [eq_ofNat (show c.toNat = 97 + (n - 10) by omega), show n = n - 10 + 10 by omega]
      exact hexDigit_lower (n - 10) (by omega)
    split at h
    · next hrange =>
      have hc : 65 ≤ c.toNat ∧ c.toNat ≤ 70 := toNat_range hrange
      have hn : c.toNat - 65 + 10 = n := Option.some.inj h
      rw [eq_ofNat (show c.toNat = 65 + (n - 10) by omega), show n = n - 10 + 10 by omega]
      exact hexDigit_upper (n - 10) (by omega)
    · cases h
  · exact fun h => h.map_eq (f := hexValue?) (g := some) (by decide)

/-- Four digits are read as the value that the grammar gives them. -/
theorem hexValue4?_eq_some {c₁ c₂ c₃ c₄ : Char} {n : Nat} :
    hexValue4? c₁ c₂ c₃ c₄ = some n ↔ SpellsPiece (.unit n) ['\\', 'u', c₁, c₂, c₃, c₄] := by
  constructor
  · intro h
    simp only [hexValue4?, Option.bind_eq_bind, Option.bind_eq_some_iff] at h
    obtain ⟨n₁, h₁, n₂, h₂, n₃, h₃, n₄, h₄, h⟩ := h
    cases h
    rw [hexValue?_eq_some] at h₁ h₂ h₃ h₄
    exact .hex h₁ h₂ h₃ h₄
  · intro h
    cases h with
    | hex h₁ h₂ h₃ h₄ =>
        rw [← hexValue?_eq_some] at h₁ h₂ h₃ h₄
        simp only [hexValue4?, h₁, h₂, h₃, h₄, Option.bind_eq_bind, Option.bind_some]
        rfl

theorem unit_sound {text rest : List Char} {n : Nat} (h : unit text = .ok n rest) :
    ∃ digits, text = digits ++ rest ∧ SpellsPiece (.unit n) ('\\' :: 'u' :: digits) := by
  unfold unit at h
  split at h
  · next a b c d tail =>
    split at h
    · next value hvalue =>
      cases h
      exact ⟨[a, b, c, d], rfl, hexValue4?_eq_some.1 hvalue⟩
    · cases h
  · split at h <;> cases h

/-- A hexadecimal digit is one byte. -/
theorem size_hexDigit {c : Char} {n : Nat} (h : HexDigit c n) : c.utf8Size = 1 :=
  h.map_eq (f := Char.utf8Size) (g := fun _ => 1) (by decide)

/-- Fewer than four digits are too few. -/
theorem starved_unit {c₁ c₂ c₃ c₄ : Char} (h₁ : c₁.utf8Size = 1) (h₂ : c₂.utf8Size = 1)
    (h₃ : c₃.utf8Size = 1) : Starved unit [c₁, c₂, c₃, c₄] := by
  have hshort : ∀ front, front.length < 4 → size front < 4 → (unit front).TooShort := by
    intro front hlength hsize
    refine ⟨.endInString, ?_, rfl⟩
    unfold unit
    split
    · simp only [List.length_cons] at hlength
      omega
    · rw [if_pos hsize]
  refine .cons (hshort [] (by decide) (by decide)) (.cons (hshort [c₁] ?_ ?_)
    (.cons (hshort [c₁, c₂] ?_ ?_) (.cons (hshort [c₁, c₂, c₃] ?_ ?_) (starved_nil _))))
  all_goals simp [size, h₁, h₂, h₃]

theorem unit_complete {piece : List Char} {n : Nat} (h : SpellsPiece (.unit n) piece) :
    ∃ digits, piece = '\\' :: 'u' :: digits ∧ Takes unit digits n := by
  cases h with
  | @hex c₁ c₂ c₃ c₄ n₁ n₂ n₃ n₄ h₁ h₂ h₃ h₄ =>
      refine ⟨[c₁, c₂, c₃, c₄], rfl, fun rest => ?_,
        starved_unit (size_hexDigit h₁) (size_hexDigit h₂) (size_hexDigit h₃)⟩
      show unit (c₁ :: c₂ :: c₃ :: c₄ :: rest) = _
      rw [unit, hexValue4?_eq_some.2 (.hex h₁ h₂ h₃ h₄)]

/-! ## §2. The spellings of a character. -/

/-- The first half that stands for a character above U+FFFF. -/
def firstHalfOf (c : Char) : Nat := 0xD800 + (c.toNat - 0x10000) / 0x400

/-- The second half that stands for it. -/
def secondHalfOf (c : Char) : Nat := 0xDC00 + (c.toNat - 0x10000) % 0x400

/-- The spellings of a character. -/
inductive SpellsChar (c : Char) : List Char → Prop where
  | raw (control : 0x20 ≤ c.toNat) (quote : c ≠ '"') (backslash : c ≠ '\\') : SpellsChar c [c]
  | short {letter : Char} (escape : ShortEscape letter c) : SpellsChar c ['\\', letter]
  | number {escape : List Char} (spelled : SpellsPiece (.unit c.toNat) escape) :
      SpellsChar c escape
  | pair {first second : List Char} (above : 0xFFFF < c.toNat)
      (head : SpellsPiece (.unit (firstHalfOf c)) first)
      (tail : SpellsPiece (.unit (secondHalfOf c)) second) : SpellsChar c (first ++ second)

theorem isFirstHalf_iff {n : Nat} : isFirstHalf n = true ↔ 0xD800 ≤ n ∧ n < 0xDC00 := by
  rw [isFirstHalf, Bool.and_eq_true, decide_eq_true_eq, decide_eq_true_eq]

theorem isSecondHalf_iff {n : Nat} : isSecondHalf n = true ↔ 0xDC00 ≤ n ∧ n < 0xE000 := by
  rw [isSecondHalf, Bool.and_eq_true, decide_eq_true_eq, decide_eq_true_eq]

/-- A number that is no half of a pair. -/
theorem not_half_iff {n : Nat} :
    (isSecondHalf n = false ∧ isFirstHalf n = false) ↔ (n < 0xD800 ∨ 0xE000 ≤ n) := by
  rw [← Bool.not_eq_true, ← Bool.not_eq_true, isFirstHalf_iff, isSecondHalf_iff]
  omega

theorem isSecondHalf_of_isFirstHalf {n : Nat} (h : isFirstHalf n = true) :
    isSecondHalf n = false := by
  rw [← Bool.not_eq_true, isSecondHalf_iff]
  rw [isFirstHalf_iff] at h
  omega

theorem HexDigit.lt {c : Char} {n : Nat} (h : HexDigit c n) : n < 16 := by
  rcases h with h | h
  · exact (List.getElem?_eq_some_iff.1 h).1
  · exact (List.getElem?_eq_some_iff.1 h).1

/-- Four digits are a number of sixteen bits. -/
theorem SpellsPiece.unit_lt {n : Nat} {escape : List Char} (h : SpellsPiece (.unit n) escape) :
    n < 0x10000 := by
  cases h with
  | hex h₁ h₂ h₃ h₄ =>
      have := h₁.lt
      have := h₂.lt
      have := h₃.lt
      have := h₄.lt
      omega

/-- The number of a character is no half of a pair. -/
theorem toNat_not_half (c : Char) : c.toNat < 0xD800 ∨ 0xE000 ≤ c.toNat :=
  c.valid.imp_right fun h => h.1

theorem toNat_ofNat {n : Nat} (h : n < 0xD800 ∨ 0xE000 ≤ n) (hmax : n < 0x110000) :
    (Char.ofNat n).toNat = n := by
  rw [Char.ofNat, dif_pos (h.imp_right fun h => ⟨h, hmax⟩)]
  rfl

/-- The two halves of a character make it up again. -/
theorem joinHalves_halvesOf {c : Char} (above : 0xFFFF < c.toNat) :
    isFirstHalf (firstHalfOf c) = true ∧ isSecondHalf (secondHalfOf c) = true
      ∧ joinHalves (firstHalfOf c) (secondHalfOf c) = c := by
  have hmax : c.toNat < 0x110000 := (toNat_not_half c).elim (by omega) fun _ =>
    (c.valid.resolve_left (by show ¬ c.toNat < _; omega)).2
  rw [isFirstHalf_iff, isSecondHalf_iff]
  unfold firstHalfOf secondHalfOf
  refine ⟨by omega, by omega, (eq_ofNat ?_).symm⟩
  omega

/-- Two halves are those of the character that they make up. -/
theorem halvesOf_joinHalves {first second : Nat} (hfirst : isFirstHalf first = true)
    (hsecond : isSecondHalf second = true) :
    0xFFFF < (joinHalves first second).toNat ∧ firstHalfOf (joinHalves first second) = first
      ∧ secondHalfOf (joinHalves first second) = second := by
  rw [isFirstHalf_iff] at hfirst
  rw [isSecondHalf_iff] at hsecond
  unfold firstHalfOf secondHalfOf joinHalves
  rw [toNat_ofNat (by omega) (by omega)]
  omega

theorem SpellsChar.of_char {c : Char} {text : List Char} (h : SpellsPiece (.char c) text) :
    SpellsChar c text := by
  cases h with
  | raw control quote backslash => exact .raw control quote backslash
  | short escape => exact .short escape

theorem SpellsChar.of_unit {n : Nat} {text : List Char} (h : SpellsPiece (.unit n) text)
    (hn : n < 0xD800 ∨ 0xE000 ≤ n) : SpellsChar (Char.ofNat n) text := by
  have hmax := h.unit_lt
  refine .number ?_
  rwa [toNat_ofNat hn (by omega)]

theorem SpellsChar.of_pair {first second : Nat} {text text' : List Char}
    (h : SpellsPiece (.unit first) text) (h' : SpellsPiece (.unit second) text')
    (hfirst : isFirstHalf first = true) (hsecond : isSecondHalf second = true) :
    SpellsChar (joinHalves first second) (text ++ text') := by
  obtain ⟨above, hfirstOf, hsecondOf⟩ := halvesOf_joinHalves hfirst hsecond
  refine .pair above ?_ ?_
  · rwa [hfirstOf]
  · rwa [hsecondOf]

theorem SpellsPiece.ne_nil {piece : Piece} {text : List Char} (h : SpellsPiece piece text) :
    text ≠ [] := by
  cases h <;> exact List.cons_ne_nil _ _

theorem SpellsChar.ne_nil {c : Char} {text : List Char} (h : SpellsChar c text) : text ≠ [] := by
  cases h with
  | raw | short => exact List.cons_ne_nil _ _
  | number spelled => exact spelled.ne_nil
  | pair _ head => exact List.append_ne_nil_of_left_ne_nil head.ne_nil _

/-! ## §3. One character. -/

/-- What an escape by digits gives is what the digits spell. -/
theorem codePoint_sound {text rest : List Char} {c : Char} (h : codePoint text = .ok c rest) :
    ∃ digits, text = digits ++ rest ∧ SpellsChar c ('\\' :: 'u' :: digits) := by
  obtain ⟨n, mid, hunit, hnext⟩ := stages_of_bind h
  clear h
  obtain ⟨digits, rfl, hn⟩ := unit_sound hunit
  split at hnext
  · cases hnext
  next hsecond =>
  split at hnext
  · next hfirst =>
    -- the first half of a pair: the second must follow
    unfold secondHalf at hnext
    split at hnext
    · cases hnext
    · cases hnext
    · next tail =>
      obtain ⟨m, mid', hunit', hjoin⟩ := stages_of_bind hnext
      clear hnext
      obtain ⟨digits', rfl, hm⟩ := unit_sound hunit'
      split at hjoin
      · next hm' =>
        obtain ⟨rfl, rfl⟩ := pure_eq_ok hjoin
        exact ⟨digits ++ '\\' :: 'u' :: digits', by simp, .of_pair hn hm hfirst hm'⟩
      · cases hjoin
    · cases hnext
    · cases hnext
  · next hfirst =>
    cases hnext
    exact ⟨digits, rfl, .of_unit hn
      (not_half_iff.1 ⟨by simpa using hsecond, by simpa using hfirst⟩)⟩

theorem escape_sound {text rest : List Char} {c : Char} (h : escape text = .ok c rest) :
    ∃ body, text = body ++ rest ∧ SpellsChar c ('\\' :: body) := by
  unfold escape at h
  split at h
  · cases h
  · obtain ⟨digits, rfl, hspells⟩ := codePoint_sound h
    exact ⟨'u' :: digits, rfl, hspells⟩
  · next letter tail _ =>
    split at h
    · next value hvalue =>
      cases h
      exact ⟨[letter], rfl, .short (shortEscape?_eq_some.1 hvalue)⟩
    · cases h

/-- **What one turn takes is a character in one of its spellings, or the closing mark.** -/
theorem character_sound {text rest : List Char} {o : Option Char}
    (h : character text = .ok o rest) :
    match o with
    | none => text = '"' :: rest
    | some c => ∃ body, text = body ++ rest ∧ SpellsChar c body := by
  unfold character at h
  split at h
  · cases h
  · cases h
    rfl
  · obtain ⟨c, mid, hescape, hpure⟩ := stages_of_bind h
    cases hpure
    obtain ⟨body, rfl, hspells⟩ := escape_sound hescape
    exact ⟨'\\' :: body, rfl, hspells⟩
  · next c tail hquote hslash =>
    split at h
    · cases h
    · next hcontrol =>
      cases h
      exact ⟨[c], rfl, .raw (by omega) hquote hslash⟩

theorem takes_raw {c : Char} (control : 0x20 ≤ c.toNat) (quote : c ≠ '"') (backslash : c ≠ '\\') :
    Takes character [c] (some c) := by
  refine ⟨fun rest => ?_, .cons ⟨.endInString, rfl, rfl⟩ (starved_nil _)⟩
  rw [List.singleton_append, character]
  · rw [if_neg (by omega)]
  · exact quote
  · exact backslash

theorem takes_short {letter c : Char} (h : ShortEscape letter c) :
    Takes character ['\\', letter] (some c) := by
  refine ⟨fun rest => ?_, .cons ⟨.endInString, rfl, rfl⟩
    (.cons ⟨.endInString, rfl, rfl⟩ (starved_nil _))⟩
  have hread : escape (letter :: rest) = .ok c rest := by
    have hu : letter ≠ 'u' := by cases h <;> decide
    rw [escape, shortEscape?_eq_some.2 h]
    exact hu
  exact bind_eq_of_ok hread fun c => pure (some c)

/-- What stands behind a backslash and a `u` is read as a code point. -/
theorem takes_character_of_codePoint {digits : List Char} {c : Char}
    (h : Takes codePoint digits c) : Takes character ('\\' :: 'u' :: digits) (some c) where
  reads := fun rest => bind_eq_of_ok (show escape ('u' :: (digits ++ rest)) = _ from h.reads rest)
    fun c => pure (some c)
  starved := .cons ⟨.endInString, rfl, rfl⟩ (.cons ⟨.endInString, rfl, rfl⟩
    fun front back htext hback =>
      tooShort_bind (show (escape ('u' :: front)).TooShort from h.starved front back htext hback)
        fun c => pure (some c))

theorem takes_unit {n : Nat} {piece : List Char} (h : SpellsPiece (.unit n) piece)
    (hn : n < 0xD800 ∨ 0xE000 ≤ n) : Takes character piece (some (Char.ofNat n)) := by
  obtain ⟨digits, rfl, hunit⟩ := unit_complete h
  obtain ⟨hsecond, hfirst⟩ := not_half_iff.2 hn
  have hcode : Takes codePoint (digits ++ []) (Char.ofNat n) := by
    refine hunit.bind ?_
    rw [if_neg (by simp [hsecond]), if_neg (by simp [hfirst])]
    exact takes_pure _
  rw [List.append_nil] at hcode
  exact takes_character_of_codePoint hcode

theorem takes_pair {first second : Nat} {piece piece' : List Char}
    (h : SpellsPiece (.unit first) piece) (h' : SpellsPiece (.unit second) piece')
    (hfirst : isFirstHalf first = true) (hsecond : isSecondHalf second = true) :
    Takes character (piece ++ piece') (some (joinHalves first second)) := by
  obtain ⟨digits, rfl, hunit⟩ := unit_complete h
  obtain ⟨digits', rfl, hunit'⟩ := unit_complete h'
  have hsecondUnit : Takes (secondUnit first) (digits' ++ []) (joinHalves first second) := by
    refine hunit'.bind ?_
    rw [if_pos hsecond]
    exact takes_pure _
  rw [List.append_nil] at hsecondUnit
  -- between the halves stand a backslash and a `u`, and the text may break off at either
  have hhalf : Takes (secondHalf first) ('\\' :: 'u' :: digits') (joinHalves first second) :=
    ⟨hsecondUnit.reads, .cons ⟨.endInString, rfl, rfl⟩
      (.cons ⟨.endInString, rfl, rfl⟩ hsecondUnit.starved)⟩
  have hcode : Takes codePoint (digits ++ '\\' :: 'u' :: digits') (joinHalves first second) := by
    refine hunit.bind ?_
    rw [if_neg (by simp [isSecondHalf_of_isFirstHalf hfirst]), if_pos hfirst]
    exact hhalf
  exact takes_character_of_codePoint hcode

/-- **One turn takes a character in any of its spellings.** -/
theorem SpellsChar.takes {c : Char} {text : List Char} (h : SpellsChar c text) :
    Takes character text (some c) := by
  cases h with
  | raw control quote backslash => exact takes_raw control quote backslash
  | short escape => exact takes_short escape
  | number spelled =>
      have htakes := takes_unit spelled (toNat_not_half c)
      rwa [Char.ofNat_toNat] at htakes
  | pair above head tail =>
      obtain ⟨hfirst, hsecond, hjoin⟩ := joinHalves_halvesOf above
      have htakes := takes_pair head tail hfirst hsecond
      rwa [hjoin] at htakes

/-! ## §4. Strings that are wanted. -/

/-- The spellings of a text. -/
inductive SpellsText : List Char → List Char → Prop where
  | nil : SpellsText [] []
  | cons {c : Char} {cs front back : List Char} (head : SpellsChar c front)
      (tail : SpellsText cs back) : SpellsText (c :: cs) (front ++ back)

theorem charactersUpTo_sound (bound : List Char) :
    ∀ {text rest cs : List Char}, charactersUpTo bound text = .ok cs rest →
      ∃ body, text = body ++ '"' :: rest ∧ SpellsText cs body := by
  -- on the turns of the loop: each puts a character in front
  induction bound with
  | nil =>
      intro text rest cs h
      cases h
  | cons _ bound ih =>
      intro text rest cs h
      obtain ⟨o, mid, hcharacter, hnext⟩ := stages_of_bind h
      clear h
      have hsound := character_sound hcharacter
      cases o with
      | none =>
          cases hnext
          exact ⟨[], hsound, .nil⟩
      | some c =>
          obtain ⟨front, rfl, hspells⟩ := hsound
          obtain ⟨cs', mid', hloop, hpure⟩ := stages_of_bind hnext
          cases hpure
          obtain ⟨body, rfl, hspells'⟩ := ih hloop
          exact ⟨front ++ body, by simp, .cons hspells hspells'⟩

/-- The loop takes these characters and the closing mark, under any bound that is long enough;
without the mark the text is too short for it. -/
structure TakesUpTo (body cs : List Char) : Prop where
  reads : ∀ bound rest : List Char, body.length < bound.length →
    charactersUpTo bound (body ++ '"' :: rest) = .ok cs rest
  starved : ∀ bound front back : List Char, body ++ ['"'] = front ++ back → back ≠ [] →
    front.length ≤ bound.length → (charactersUpTo bound front).TooShort

theorem charactersUpTo_nil (bound : List Char) : (charactersUpTo bound []).TooShort := by
  cases bound <;> exact ⟨.endInString, rfl, rfl⟩

theorem takesUpTo_nil : TakesUpTo [] [] := by
  refine ⟨fun bound rest hbound => ?_, fun bound front back htext hback _ => ?_⟩
  · cases bound with
    | nil => cases hbound
    | cons _ bound => rfl
  · cases front with
    | nil => exact charactersUpTo_nil bound
    | cons c front =>
        have := congrArg List.length htext
        have hpos := List.length_pos_iff.2 hback
        simp only [List.length_append, List.length_cons, List.nil_append, List.length_nil] at this
        omega

/-- One turn of the loop takes a character, and leaves a bound for what is left. -/
theorem TakesUpTo.cons {piece body cs : List Char} {c : Char}
    (head : Takes character piece (some c)) (hpiece : piece ≠ []) (tail : TakesUpTo body cs) :
    TakesUpTo (piece ++ body) (c :: cs) := by
  have hpos : 0 < piece.length := List.length_pos_iff.2 hpiece
  refine ⟨fun bound rest hbound => ?_, fun bound front back htext hback hbound => ?_⟩
  · rw [List.length_append] at hbound
    cases bound with
    | nil => cases hbound
    | cons _ bound =>
        have hloop := tail.reads bound rest (by rw [List.length_cons] at hbound; omega)
        rw [List.append_assoc, charactersUpTo, bind_eq_of_ok (head.reads _)]
        show (charactersUpTo bound >>= fun cs => pure (c :: cs)) _ = _
        rw [bind_eq_of_ok hloop]
        rfl
  · cases bound with
    | nil =>
        rw [List.length_eq_zero_iff.1 (Nat.le_zero.1 hbound)]
        exact charactersUpTo_nil []
    | cons _ bound =>
        rw [List.append_assoc] at htext
        obtain ⟨between, rfl, hmore⟩ | ⟨between, hfront, hbetween⟩ := breaks_off htext
        · rw [charactersUpTo, bind_eq_of_ok (head.reads between)]
          refine tooShort_bind (tail.starved bound between back hmore hback ?_)
            fun cs => pure (c :: cs)
          simp only [List.length_append, List.length_cons] at hbound
          omega
        · exact tooShort_bind (head.starved front between hfront hbetween) _

theorem SpellsText.takesUpTo {cs body : List Char} (h : SpellsText cs body) :
    TakesUpTo body cs := by
  induction h with
  | nil => exact takesUpTo_nil
  | cons head tail ih => exact .cons head.takes head.ne_nil ih

/-- **A string is taken up to its closing mark, in any spelling.** -/
theorem takes_stringBody {s : String} {body : List Char} (h : SpellsText s.toList body) :
    Takes stringBody (body ++ ['"']) s := by
  have htakes := h.takesUpTo
  refine ⟨fun rest => ?_, fun front back htext hback => ?_⟩
  · rw [List.append_assoc, List.singleton_append]
    have hloop := htakes.reads (body ++ '"' :: rest) rest
      (by rw [List.length_append, List.length_cons]; omega)
    have hread := bind_eq_of_ok hloop fun cs => pure (String.ofList cs)
    rwa [String.ofList_toList] at hread
  · exact tooShort_bind (htakes.starved front front back htext hback (Nat.le_refl _))
      fun cs => pure (String.ofList cs)

/-- **A string is read from behind its first mark from every spelling of it, up to the closing
mark, and from nothing else.** -/
theorem stringBody_iff_spellsText {text rest : List Char} {s : String} :
    stringBody text = .ok s rest ↔ ∃ body, text = body ++ '"' :: rest
      ∧ SpellsText s.toList body := by
  constructor
  · intro h
    obtain ⟨cs, mid, hloop, hpure⟩ := stages_of_bind h
    cases hpure
    obtain ⟨body, rfl, hspells⟩ := charactersUpTo_sound _ hloop
    exact ⟨body, rfl, by rwa [String.toList_ofList]⟩
  · rintro ⟨body, rfl, hspells⟩
    have hread := (takes_stringBody hspells).reads rest
    rwa [List.append_assoc, List.singleton_append] at hread

/-! ## §5. The same by parts. -/

/-- In front of other parts these stand for one character. -/
def StandsFor (pieces : List Piece) (c : Char) : Prop :=
  ∀ more, chars? (pieces ++ more) = (chars? more).map (c :: ·)

theorem standsFor_char (c : Char) : StandsFor [.char c] c := fun _ => rfl

theorem standsFor_unit {n : Nat} (h : n < 0xD800 ∨ 0xE000 ≤ n) :
    StandsFor [.unit n] (Char.ofNat n) := by
  intro more
  show chars? (.unit n :: more) = _
  rw [chars?.eq_def]
  exact if_pos h

theorem standsFor_pair {first second : Nat} (h : isFirstHalf first = true)
    (h' : isSecondHalf second = true) :
    StandsFor [.unit first, .unit second] (joinHalves first second) := by
  intro more
  rw [isFirstHalf_iff] at h
  rw [isSecondHalf_iff] at h'
  show chars? (.unit first :: .unit second :: more) = _
  rw [chars?.eq_def]
  refine (if_neg (by omega)).trans ?_
  exact if_pos (by omega)

/-- A character is spelled by parts that stand for it. -/
theorem SpellsChar.pieces {c : Char} {text : List Char} (h : SpellsChar c text) :
    ∃ pieces, SpellsString pieces text ∧ StandsFor pieces c := by
  have hone : ∀ {piece : Piece}, SpellsPiece piece text → SpellsString [piece] text := by
    intro piece hpiece
    have hstring := SpellsString.cons hpiece .nil
    rwa [List.append_nil] at hstring
  cases h with
  | raw control quote backslash =>
      exact ⟨[.char c], hone (.raw control quote backslash), standsFor_char c⟩
  | short escape => exact ⟨[.char c], hone (.short escape), standsFor_char c⟩
  | number spelled =>
      have hfor := standsFor_unit (toNat_not_half c)
      rw [Char.ofNat_toNat] at hfor
      exact ⟨[.unit c.toNat], hone spelled, hfor⟩
  | @pair first second above head tail =>
      obtain ⟨hfirst, hsecond, hjoin⟩ := joinHalves_halvesOf above
      have hfor := standsFor_pair hfirst hsecond
      rw [hjoin] at hfor
      have hstring := SpellsString.cons head (.cons tail .nil)
      rw [List.append_nil] at hstring
      exact ⟨[.unit (firstHalfOf c), .unit (secondHalfOf c)], hstring, hfor⟩

theorem SpellsString.append {pieces pieces' : List Piece} {body body' : List Char}
    (h : SpellsString pieces body) (h' : SpellsString pieces' body') :
    SpellsString (pieces ++ pieces') (body ++ body') := by
  induction h with
  | nil => exact h'
  | cons head tail ih =>
      rw [List.append_assoc]
      exact .cons head ih

/-- What is spelled by parts is spelled character by character. -/
theorem spellsText_of_chars? {pieces : List Piece} {body cs : List Char}
    (h : SpellsString pieces body) (hcs : chars? pieces = some cs) : SpellsText cs body := by
  -- as the parts are joined to characters
  induction pieces using chars?.induct generalizing body cs with
  | case1 =>
      cases h
      cases hcs
      exact .nil
  | case2 c pieces ih =>
      obtain ⟨cs', hcs', rfl⟩ := Option.map_eq_some_iff.1 hcs
      cases h with
      | cons head tail => exact .cons (.of_char head) (ih tail hcs')
  | case3 first pieces hwhole ih =>
      rw [chars?.eq_def] at hcs
      obtain ⟨cs', hcs', rfl⟩ := Option.map_eq_some_iff.1 ((if_pos hwhole).symm.trans hcs)
      cases h with
      | cons head tail => exact .cons (.of_unit head hwhole) (ih tail hcs')
  | case4 first hhalf second pieces hpair ih =>
      rw [chars?.eq_def] at hcs
      have hcs := (if_pos hpair).symm.trans ((if_neg hhalf).symm.trans hcs)
      obtain ⟨cs', hcs', rfl⟩ := Option.map_eq_some_iff.1 hcs
      cases h with
      | cons head tail =>
          cases tail with
          | cons head' tail =>
              have hfirst : isFirstHalf first = true := isFirstHalf_iff.2 ⟨by omega, hpair.1⟩
              rw [← List.append_assoc]
              exact .cons (.of_pair head head' hfirst (isSecondHalf_iff.2 hpair.2)) (ih tail hcs')
  | case5 first hhalf second pieces hpair =>
      rw [chars?.eq_def] at hcs
      cases (if_neg hpair).symm.trans ((if_neg hhalf).symm.trans hcs)
  | case6 first pieces hhalf hnone =>
      rw [chars?.eq_def] at hcs
      have hcs := (if_neg hhalf).symm.trans hcs
      split at hcs
      · exact absurd rfl (hnone _ _)
      · cases hcs

/-- **Spelled character by character is spelled by parts that say it.** -/
theorem spellsText_iff {cs body : List Char} :
    SpellsText cs body ↔ ∃ pieces, SpellsString pieces body ∧ chars? pieces = some cs := by
  constructor
  · intro h
    induction h with
    | nil => exact ⟨[], .nil, rfl⟩
    | cons head tail ih =>
        obtain ⟨pieces, hspells, hcs⟩ := ih
        obtain ⟨front, hfront, hfor⟩ := head.pieces
        exact ⟨front ++ pieces, hfront.append hspells, by rw [hfor pieces, hcs]; rfl⟩
  · rintro ⟨pieces, hspells, hcs⟩
    exact spellsText_of_chars? hspells hcs

theorem text?_eq_some {pieces : List Piece} {s : String} :
    text? pieces = some s ↔ chars? pieces = some s.toList := by
  rw [text?, Option.map_eq_some_iff]
  constructor
  · rintro ⟨cs, hcs, rfl⟩
    rw [hcs, String.toList_ofList]
  · intro hcs
    exact ⟨s.toList, hcs, String.ofList_toList⟩

/-- **A string is read from behind its first mark exactly if it is spelled there, up to the
closing mark, and says something.** -/
theorem stringBody_iff {text rest : List Char} {s : String} :
    stringBody text = .ok s rest ↔ ∃ pieces body, text = body ++ '"' :: rest
      ∧ SpellsString pieces body ∧ text? pieces = some s := by
  simp only [stringBody_iff_spellsText, spellsText_iff, text?_eq_some]
  constructor
  · rintro ⟨body, htext, pieces, hspells, hcs⟩
    exact ⟨pieces, body, htext, hspells, hcs⟩
  · rintro ⟨pieces, body, htext, hspells, hcs⟩
    exact ⟨body, htext, pieces, hspells, hcs⟩

/-! ## §6. Strings that are passed over. -/

theorem ignoredEscape_sound {text rest : List Char} (h : ignoredEscape text = .ok () rest) :
    ∃ piece body, text = body ++ rest ∧ SpellsPiece piece ('\\' :: body) := by
  unfold ignoredEscape at h
  split at h
  · cases h
  · obtain ⟨n, mid, hunit, hpure⟩ := stages_of_bind h
    cases hpure
    obtain ⟨digits, rfl, hn⟩ := unit_sound hunit
    exact ⟨.unit n, 'u' :: digits, rfl, hn⟩
  · next letter tail _ =>
    split at h
    · next value hvalue =>
      cases h
      exact ⟨.char value, [letter], rfl, .short (shortEscape?_eq_some.1 hvalue)⟩
    · cases h

theorem ignoredCharacter_sound {text rest : List Char} {more : Bool}
    (h : ignoredCharacter text = .ok more rest) :
    if more then ∃ piece body, text = body ++ rest ∧ SpellsPiece piece body
    else text = '"' :: rest := by
  unfold ignoredCharacter at h
  split at h
  · cases h
  · cases h
    rfl
  · obtain ⟨_, mid, hescape, hpure⟩ := stages_of_bind h
    cases hpure
    obtain ⟨piece, body, rfl, hspells⟩ := ignoredEscape_sound hescape
    exact ⟨piece, '\\' :: body, rfl, hspells⟩
  · next c tail hquote hslash =>
    split at h
    · cases h
    · cases h
      exact ⟨.char c, [c], rfl, .raw (by omega) hquote hslash⟩

/-- Any part of a string is passed over in one turn. -/
theorem reads_ignoredCharacter {piece : Piece} {text : List Char} (h : SpellsPiece piece text) :
    Reads ignoredCharacter text true := by
  intro rest
  have hescaped : ∀ body : List Char, ignoredEscape (body ++ rest) = .ok () rest →
      ignoredCharacter ('\\' :: body ++ rest) = .ok true rest := fun _ hescape =>
    bind_eq_of_ok hescape fun _ => pure true
  cases piece with
  | unit n =>
      obtain ⟨digits, rfl, hunit⟩ := unit_complete h
      exact hescaped _ (bind_eq_of_ok (hunit.reads rest) fun _ => pure ())
  | char c =>
      cases h with
      | raw control quote backslash =>
          rw [List.singleton_append, ignoredCharacter]
          · rw [if_neg (by omega)]
          · exact quote
          · exact backslash
      | @short letter _ hescape =>
          refine hescaped [letter] ?_
          have hu : letter ≠ 'u' := by cases hescape <;> decide
          rw [List.singleton_append, ignoredEscape, shortEscape?_eq_some.2 hescape]
          exact hu

theorem ignoredUpTo_sound (bound : List Char) :
    ∀ {text rest : List Char}, ignoredUpTo bound text = .ok () rest →
      ∃ pieces body, text = body ++ '"' :: rest ∧ SpellsString pieces body := by
  induction bound with
  | nil =>
      intro text rest h
      cases h
  | cons _ bound ih =>
      intro text rest h
      obtain ⟨more, mid, hcharacter, hnext⟩ := stages_of_bind h
      clear h
      have hsound := ignoredCharacter_sound hcharacter
      cases more with
      | false =>
          cases hnext
          exact ⟨[], [], hsound, .nil⟩
      | true =>
          obtain ⟨piece, front, rfl, hspells⟩ := hsound
          obtain ⟨pieces, body, rfl, hspells'⟩ := ih hnext
          exact ⟨piece :: pieces, front ++ body, by simp, .cons hspells hspells'⟩

theorem ignoredUpTo_complete {pieces : List Piece} {body : List Char}
    (h : SpellsString pieces body) (rest : List Char) :
    ∀ bound : List Char, body.length < bound.length →
      ignoredUpTo bound (body ++ '"' :: rest) = .ok () rest := by
  induction h with
  | nil =>
      intro bound hbound
      cases bound with
      | nil => cases hbound
      | cons _ bound => rfl
  | cons head tail ih =>
      intro bound hbound
      have hpos := List.length_pos_iff.2 head.ne_nil
      cases bound with
      | nil => cases hbound
      | cons _ bound =>
          rw [List.length_append, List.length_cons] at hbound
          rw [List.append_assoc, ignoredUpTo, bind_eq_of_ok (reads_ignoredCharacter head _)]
          exact ih bound (by omega)

/-- **A string is passed over exactly if it is spelled there, whatever it says.** -/
theorem ignoredString_iff {text rest : List Char} :
    ignoredString text = .ok () rest ↔ ∃ pieces body, text = body ++ '"' :: rest
      ∧ SpellsString pieces body := by
  constructor
  · exact ignoredUpTo_sound text
  · rintro ⟨pieces, body, rfl, hspells⟩
    exact ignoredUpTo_complete hspells rest _ (by
      rw [List.length_append, List.length_cons]
      omega)

end Keyring.Document
