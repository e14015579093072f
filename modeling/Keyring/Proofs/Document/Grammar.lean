/-
  Keyring.Proofs.Document.Grammar
  ────────────────────────────────
  **WHICH TEXTS ARE JSON.**

  The grammar of RFC 8259, apart from any reader: a relation between a
  tree and the texts that spell it.  A tree keeps what a string or a
  number looks like no further than its meaning needs it:

      Piece      — of a string: a character, or the number of an escape
                   by four hexadecimal digits, be it half of a pair or not
      Json       — a value; a number is its text
      Spells     — the texts of a value, and of what stands between the
                   brackets of an array or object

  What stands between brackets is spelled from where one part ends: white
  space, and before every part but the first a comma; last comes the
  white space before the closer.  So a list of parts is spelled part by
  part, and no trailing comma is spelled at all.

  Main results:
    * `Spells.value_begins` — the first character of a value;
    * `EndsNumber.of_spells` — after a value that is followed by more of
      an array or object no number goes on.
-/
import Keyring.Document.Schema

namespace Keyring.Document

open Reader

/-! ## §1. White space and strings. -/

/-- White space of JSON. -/
def IsSpace (text : List Char) : Prop :=
  ∀ c ∈ text, c = ' ' ∨ c = '\t' ∨ c = '\n' ∨ c = '\r'

instance (text : List Char) : Decidable (IsSpace text) :=
  List.decidableBAll (fun c => c = ' ' ∨ c = '\t' ∨ c = '\n' ∨ c = '\r') text

/-- A part of a string. -/
inductive Piece where
  /-- A character, as itself or by a short escape. -/
  | char (c : Char)
  /-- An escape by four hexadecimal digits, with their value. -/
  | unit (value : Nat)
  deriving DecidableEq, Repr

/-- After a backslash the letter stands for the character. -/
inductive ShortEscape : Char → Char → Prop where
  | quotationMark : ShortEscape '"' '"'
  | backslash : ShortEscape '\\' '\\'
  | slash : ShortEscape '/' '/'
  | backspace : ShortEscape 'b' '\x08'
  | formFeed : ShortEscape 'f' '\x0c'
  | lineFeed : ShortEscape 'n' '\n'
  | carriageReturn : ShortEscape 'r' '\r'
  | tab : ShortEscape 't' '\t'

/-- The character is the hexadecimal digit of this value, in either case. -/
def HexDigit (c : Char) (value : Nat) : Prop :=
  "0123456789abcdef".toList[value]? = some c ∨ "0123456789ABCDEF".toList[value]? = some c

/-- The texts of a part of a string. -/
inductive SpellsPiece : Piece → List Char → Prop where
  /-- A character by itself: no control character, quotation mark or backslash. -/
  | raw {c : Char} (control : 0x20 ≤ c.toNat) (quote : c ≠ '"') (backslash : c ≠ '\\') :
      SpellsPiece (.char c) [c]
  | short {letter c : Char} (escape : ShortEscape letter c) :
      SpellsPiece (.char c) ['\\', letter]
  | hex {c₁ c₂ c₃ c₄ : Char} {n₁ n₂ n₃ n₄ : Nat} (h₁ : HexDigit c₁ n₁) (h₂ : HexDigit c₂ n₂)
      (h₃ : HexDigit c₃ n₃) (h₄ : HexDigit c₄ n₄) :
      SpellsPiece (.unit (((n₁ * 16 + n₂) * 16 + n₃) * 16 + n₄)) ['\\', 'u', c₁, c₂, c₃, c₄]

/-- The texts between the quotation marks of a string. -/
inductive SpellsString : List Piece → List Char → Prop where
  | nil : SpellsString [] []
  | cons {piece : Piece} {pieces : List Piece} {front back : List Char}
      (head : SpellsPiece piece front) (tail : SpellsString pieces back) :
      SpellsString (piece :: pieces) (front ++ back)

/-! ## §2. Numbers. -/

/-- Digits, none or more. -/
def AreDigits (text : List Char) : Prop := ∀ c ∈ text, c.isDigit = true

/-- The digits before the point: a zero stands alone. -/
inductive IsWhole : List Char → Prop where
  | zero : IsWhole ['0']
  | digits {c : Char} {more : List Char} (first : c.isDigit = true) (nonzero : c ≠ '0')
      (rest : AreDigits more) : IsWhole (c :: more)

/-- A point with digits, or nothing. -/
inductive IsFraction : List Char → Prop where
  | absent : IsFraction []
  | digits {ds : List Char} (nonempty : ds ≠ []) (digits : AreDigits ds) :
      IsFraction ('.' :: ds)

/-- The sign of an exponent, or nothing. -/
inductive IsSign : List Char → Prop where
  | absent : IsSign []
  | plus : IsSign ['+']
  | minus : IsSign ['-']

/-- A letter with a sign and digits, or nothing. -/
inductive IsExponent : List Char → Prop where
  | absent : IsExponent []
  | digits {letter : Char} {sign ds : List Char} (letter_eq : letter = 'e' ∨ letter = 'E')
      (sign_ok : IsSign sign) (nonempty : ds ≠ []) (digits : AreDigits ds) :
      IsExponent (letter :: (sign ++ ds))

/-- The texts that are numbers. -/
inductive IsNumber : List Char → Prop where
  | mk {minus whole fraction exponent : List Char} (minus_eq : minus = [] ∨ minus = ['-'])
      (whole_ok : IsWhole whole) (fraction_ok : IsFraction fraction)
      (exponent_ok : IsExponent exponent) :
      IsNumber (minus ++ (whole ++ (fraction ++ exponent)))

/-! ## §3. Values. -/

/-- A JSON value. -/
inductive Json where
  | null
  | boolean (value : Bool)
  | number (text : List Char)
  | string (pieces : List Piece)
  | array (elements : List Json)
  | object (members : List (List Piece × Json))

/-- A value, or the parts that stand between two brackets. -/
inductive Part where
  | value (v : Json)
  /-- Elements up to the closer; the first of them may be the first of the array. -/
  | elements (isFirst : Bool) (vs : List Json)
  /-- Members up to the closer, likewise. -/
  | members (isFirst : Bool) (ms : List (List Piece × Json))

/-- What stands before a part: white space, and a comma in it unless the part is the first. -/
inductive Separates : Bool → List Char → Prop where
  | first {ws : List Char} (space : IsSpace ws) : Separates true ws
  | later {ws ws' : List Char} (space : IsSpace ws) (space' : IsSpace ws') :
      Separates false (ws ++ ',' :: ws')

/-- The texts of a value, and of the parts between two brackets with the white space up to the
closer. -/
inductive Spells : Part → List Char → Prop where
  | null : Spells (.value .null) ['n', 'u', 'l', 'l']
  | yes : Spells (.value (.boolean true)) ['t', 'r', 'u', 'e']
  | no : Spells (.value (.boolean false)) ['f', 'a', 'l', 's', 'e']
  | number {text : List Char} (number : IsNumber text) : Spells (.value (.number text)) text
  | string {pieces : List Piece} {text : List Char} (spelled : SpellsString pieces text) :
      Spells (.value (.string pieces)) ('"' :: (text ++ ['"']))
  | array {vs : List Json} {inner : List Char} (spelled : Spells (.elements true vs) inner) :
      Spells (.value (.array vs)) ('[' :: (inner ++ [']']))
  | object {ms : List (List Piece × Json)} {inner : List Char}
      (spelled : Spells (.members true ms) inner) :
      Spells (.value (.object ms)) ('\x7b' :: (inner ++ ['\x7d']))
  | noElement {isFirst : Bool} {ws : List Char} (space : IsSpace ws) :
      Spells (.elements isFirst []) ws
  | element {isFirst : Bool} {v : Json} {vs : List Json} {sep text more : List Char}
      (separates : Separates isFirst sep) (head : Spells (.value v) text)
      (tail : Spells (.elements false vs) more) :
      Spells (.elements isFirst (v :: vs)) (sep ++ (text ++ more))
  | noMember {isFirst : Bool} {ws : List Char} (space : IsSpace ws) :
      Spells (.members isFirst []) ws
  | member {isFirst : Bool} {name : List Piece} {v : Json} {ms : List (List Piece × Json)}
      {sep spelling ws ws' text more : List Char}
      (separates : Separates isFirst sep) (name_spelled : SpellsString name spelling)
      (space : IsSpace ws) (space' : IsSpace ws') (head : Spells (.value v) text)
      (tail : Spells (.members false ms) more) :
      Spells (.members isFirst ((name, v) :: ms))
        (sep ++ ('"' :: (spelling ++ ('"' :: (ws ++ (':' :: (ws' ++ (text ++ more))))))))

/-- The text of an element, up to what follows the elements. -/
theorem element_append (sep : List Char) (c : Char) (text more rest : List Char) :
    sep ++ (c :: text ++ more) ++ rest = sep ++ c :: (text ++ (more ++ rest)) := by
  simp

/-- The text of a member, up to what follows the members. -/
theorem member_append (sep spelling ws ws' text more rest : List Char) :
    sep ++ ('"' :: (spelling ++ ('"' :: (ws ++ (':' :: (ws' ++ (text ++ more))))))) ++ rest
      = sep ++ '"' :: (spelling ++ '"' ::
          (ws ++ ':' :: (ws' ++ (text ++ (more ++ rest))))) := by
  simp

/-! ## §4. White space, and what follows it. -/

theorem isSpace_iff {c : Char} : isSpace c = true ↔ c = ' ' ∨ c = '\t' ∨ c = '\n' ∨ c = '\r' := by
  simp only [isSpace, Bool.or_eq_true, beq_iff_eq]
  grind

theorem IsSpace.nil : IsSpace [] := by simp [IsSpace]

theorem IsSpace.append {ws ws' : List Char} (h : IsSpace ws) (h' : IsSpace ws') :
    IsSpace (ws ++ ws') := by
  intro c hc
  exact (List.mem_append.1 hc).elim (h c) (h' c)

/-- A text is white space and, after it, the text that is left of it. -/
theorem space_dropSpace (text : List Char) :
    ∃ ws, IsSpace ws ∧ text = ws ++ dropSpace text := by
  refine ⟨text.takeWhile isSpace, fun c hc => isSpace_iff.1 ?_, ?_⟩
  · exact List.all_eq_true.1 List.all_takeWhile c hc
  · exact List.takeWhile_append_dropWhile.symm

theorem dropSpace_append {ws : List Char} (h : IsSpace ws) (text : List Char) :
    dropSpace (ws ++ text) = dropSpace text :=
  List.dropWhile_append_of_pos fun c hc => isSpace_iff.2 (h c hc)

/-- White space is passed over up to a character that is none. -/
theorem dropSpace_append_cons {ws : List Char} (h : IsSpace ws) {c : Char}
    (hc : isSpace c = false) (text : List Char) : dropSpace (ws ++ c :: text) = c :: text := by
  rw [dropSpace_append h, dropSpace, List.dropWhile_cons, if_neg (by simp [hc])]

theorem dropSpace_isSpace {ws : List Char} (h : IsSpace ws) : dropSpace ws = [] := by
  rw [← List.append_nil ws, dropSpace_append h]
  rfl

/-- More white space in front of what separates two parts. -/
theorem Separates.append {isFirst : Bool} {sep ws : List Char} (h : Separates isFirst sep)
    (hws : IsSpace ws) : Separates isFirst (sep ++ ws) := by
  cases h with
  | first space => exact .first (space.append hws)
  | later space space' =>
      rw [List.append_assoc, List.cons_append]
      exact .later space (space'.append hws)

/-! ## §5. How a value begins and ends. -/

/-- No digit, point or exponent comes next. -/
def EndsNumber (rest : List Char) : Prop :=
  ∀ c tail, rest = c :: tail → c.isDigit = false ∧ c ≠ '.' ∧ c ≠ 'e' ∧ c ≠ 'E'

/-- White space, commas, colons and closers end a number. -/
theorem EndsNumber.cons {c : Char} (h : isSpace c = true ∨ c = ',' ∨ c = ']' ∨ c = '\x7d')
    (rest : List Char) : EndsNumber (c :: rest) := by
  intro d tail heq
  cases heq
  rw [isSpace_iff] at h
  rcases h with (rfl | rfl | rfl | rfl) | rfl | rfl | rfl <;> decide

theorem EndsNumber.of_space {ws rest : List Char} (hws : IsSpace ws) (h : EndsNumber rest) :
    EndsNumber (ws ++ rest) := by
  cases ws with
  | nil => exact h
  | cons c ws => exact .cons (.inl (isSpace_iff.2 (hws c List.mem_cons_self))) _

theorem EndsNumber.of_separates {sep : List Char} (h : Separates false sep) (rest : List Char) :
    EndsNumber (sep ++ rest) := by
  cases h with
  | later space space' =>
      rw [List.append_assoc]
      exact .of_space space (.cons (.inr (.inl rfl)) _)

/-- A value is followed by more parts or by the closer, and neither goes on with a number. -/
theorem EndsNumber.of_spells {part : Part} {text : List Char} (h : Spells part text)
    (hpart : (∃ vs, part = .elements false vs) ∨ ∃ ms, part = .members false ms)
    (bracket : Bracket) (rest : List Char) : EndsNumber (text ++ bracket.closer :: rest) := by
  have hcloser : EndsNumber (bracket.closer :: rest) := by
    cases bracket
    · exact .cons (.inr (.inr (.inl rfl))) rest
    · exact .cons (.inr (.inr (.inr rfl))) rest
  rcases hpart with ⟨vs, rfl⟩ | ⟨ms, rfl⟩
  · cases h with
    | noElement space => exact .of_space space hcloser
    | element separates head tail =>
        rw [List.append_assoc]
        exact .of_separates separates _
  · cases h with
    | noMember space => exact .of_space space hcloser
    | member separates _ _ _ _ _ =>
        rw [List.append_assoc]
        exact .of_separates separates _

/-- The first character of a number. -/
theorem IsNumber.begins {text : List Char} (h : IsNumber text) :
    ∃ c tail, text = c :: tail ∧ (c = '-' ∨ c.isDigit = true) := by
  obtain ⟨rfl | rfl, whole_ok, fraction_ok, exponent_ok⟩ := h
  · cases whole_ok with
    | zero => exact ⟨_, _, rfl, .inr rfl⟩
    | digits first _ _ => exact ⟨_, _, rfl, .inr first⟩
  · exact ⟨_, _, rfl, .inl rfl⟩

/-- What stands at the front of a number stands nowhere else at the front of a part. -/
theorem solid_of_number {c : Char} (h : c = '-' ∨ c.isDigit = true) :
    isSpace c = false ∧ c ≠ ',' ∧ c ≠ ']' ∧ c ≠ '\x7d' ∧ c ≠ '"' ∧ c ≠ '[' ∧ c ≠ '\x7b'
      ∧ c ≠ 'n' ∧ c ≠ 't' ∧ c ≠ 'f' := by
  rcases h with rfl | h
  · decide
  · have hother : ∀ d : Char, d.isDigit = false → c ≠ d := by
      rintro d hd rfl
      rw [h] at hd
      cases hd
    have hspace : isSpace c = false := by
      rw [Bool.eq_false_iff, ne_eq, isSpace_iff]
      rintro (rfl | rfl | rfl | rfl) <;> revert h <;> decide
    exact ⟨hspace, hother _ rfl, hother _ rfl, hother _ rfl, hother _ rfl, hother _ rfl,
      hother _ rfl, hother _ rfl, hother _ rfl, hother _ rfl⟩

/-- **No value begins with white space, a comma or a closer.** -/
theorem Spells.value_begins {v : Json} {text : List Char} (h : Spells (.value v) text) :
    ∃ c tail, text = c :: tail ∧ isSpace c = false ∧ c ≠ ',' ∧ c ≠ ']' ∧ c ≠ '\x7d' := by
  cases h with
  | number number =>
      obtain ⟨c, tail, rfl, hc⟩ := number.begins
      obtain ⟨hspace, hcomma, hsquare, hcurly, -⟩ := solid_of_number hc
      exact ⟨c, tail, rfl, hspace, hcomma, hsquare, hcurly⟩
  | null | yes | no | string | array | object =>
      exact ⟨_, _, rfl, by decide, by decide, by decide, by decide⟩

theorem Spells.length_pos {v : Json} {text : List Char} (h : Spells (.value v) text) :
    0 < text.length := by
  obtain ⟨c, tail, rfl, -⟩ := h.value_begins
  exact Nat.succ_pos tail.length

/-- White space in front of a value is passed over. -/
theorem Spells.dropSpace_value {v : Json} {ws text : List Char} (h : Spells (.value v) text)
    (hws : IsSpace ws) (rest : List Char) : dropSpace (ws ++ (text ++ rest)) = text ++ rest := by
  obtain ⟨c, tail, rfl, hspace, -⟩ := h.value_begins
  exact dropSpace_append_cons hws hspace _

end Keyring.Document
