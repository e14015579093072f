/-
  Keyring.Proofs.Document.Unambiguous
  ────────────────────────────────
  **A TEXT SPELLS ONE VALUE.**

  The grammar lets a text be at most one value, white space, commas and
  escapes notwithstanding.  What has to be found is where each part ends.
  The readers that pass over a part tell this: two spellings that begin
  the same text are passed over alike, and so end at the same place.

      Alone — no other value, or list of parts, is spelled by the text

  Main results:
    * `name_cut`, `value_cut` — where a name, or a value, ends;
    * `Spells.unique` — a text is one value at most;
    * `registry?_of_parse` — what is read of a text is what the one value
      decodes to that the text is.
-/
import Keyring.Proofs.Document.Acceptance

namespace Keyring.Document

open Reader

/-! ## §1. Strings. -/

/-- What a text begins with is one part of a string. -/
theorem SpellsPiece.unique {piece piece' : Piece} {text text' back back' : List Char}
    (h : SpellsPiece piece text) (h' : SpellsPiece piece' text')
    (heq : text ++ back = text' ++ back') : piece = piece' ∧ back = back' := by
  cases h with
  | raw control quote backslash =>
      cases h' with
      | raw =>
          cases heq
          exact ⟨rfl, rfl⟩
      | short | hex =>
          cases heq
          exact absurd rfl backslash
  | short escape =>
      cases h' with
      | raw _ _ backslash =>
          cases heq
          exact absurd rfl backslash
      | short escape' =>
          cases heq
          rw [← shortEscape?_eq_some] at escape escape'
          exact ⟨congrArg Piece.char (Option.some.inj (escape.symm.trans escape')), rfl⟩
      | hex =>
          cases heq
          cases escape
  | hex h₁ h₂ h₃ h₄ =>
      have hvalue := hexValue4?_eq_some.2 (.hex h₁ h₂ h₃ h₄)
      cases h' with
      | raw _ _ backslash =>
          cases heq
          exact absurd rfl backslash
      | short escape =>
          cases heq
          cases escape
      | hex h₁' h₂' h₃' h₄' =>
          have hvalue' := hexValue4?_eq_some.2 (.hex h₁' h₂' h₃' h₄')
          cases heq
          exact ⟨congrArg Piece.unit (Option.some.inj (hvalue.symm.trans hvalue')), rfl⟩

theorem SpellsString.unique {pieces pieces' : List Piece} {body : List Char}
    (h : SpellsString pieces body) (h' : SpellsString pieces' body) : pieces = pieces' := by
  induction h generalizing pieces' with
  | nil =>
      generalize hbody : ([] : List Char) = body at h'
      cases h' with
      | nil => rfl
      | cons head tail => exact absurd (List.append_eq_nil_iff.1 hbody.symm).1 head.ne_nil
  | @cons piece rest front back head tail ih =>
      generalize hbody : front ++ back = body at h'
      cases h' with
      | nil => exact absurd (List.append_eq_nil_iff.1 hbody).1 head.ne_nil
      | cons head' tail' =>
          obtain ⟨rfl, rfl⟩ := head.unique head' hbody
          rw [ih tail']

/-- A string ends at its first closing mark. -/
theorem name_cut {pieces pieces' : List Piece} {body body' back back' : List Char}
    (h : SpellsString pieces body) (h' : SpellsString pieces' body')
    (heq : body ++ '"' :: back = body' ++ '"' :: back') : pieces = pieces' ∧ back = back' := by
  have hpassed : ignoredString (body ++ '"' :: back) = .ok () back :=
    ignoredString_iff.2 ⟨pieces, body, rfl, h⟩
  have hpassed' : ignoredString (body ++ '"' :: back) = .ok () back' :=
    ignoredString_iff.2 ⟨pieces', body', heq, h'⟩
  cases hpassed.symm.trans hpassed'
  obtain rfl : body = body' := List.append_cancel_right heq
  exact ⟨h.unique h', rfl⟩

/-! ## §2. Where the parts begin and end. -/

/-- A value ends where what passes over it stops. -/
theorem value_cut {v w : Json} {text text' back back' : List Char} (h : Spells (.value v) text)
    (h' : Spells (.value w) text') (hback : EndsNumber back) (hback' : EndsNumber back')
    (heq : text ++ back = text' ++ back') : text = text' ∧ back = back' := by
  have hpassed : ignored (text ++ back) = .ok () back := ignored_complete .nil h hback
  have hpassed' : ignored (text' ++ back') = .ok () back' := ignored_complete .nil h' hback'
  rw [heq] at hpassed
  cases hpassed.symm.trans hpassed'
  exact ⟨List.append_cancel_right heq, rfl⟩

/-- What separates two parts ends where the next one begins. -/
theorem Separates.cut {isFirst : Bool} {sep sep' text text' : List Char}
    (h : Separates isFirst sep) (h' : Separates isFirst sep') (htext : dropSpace text = text)
    (htext' : dropSpace text' = text') (heq : sep ++ text = sep' ++ text') : text = text' := by
  cases h with
  | first space =>
      cases h' with
      | first space' =>
          have hdrop := congrArg dropSpace heq
          rwa [dropSpace_append space, dropSpace_append space', htext, htext'] at hdrop
  | later before behind =>
      cases h' with
      | later before' behind' =>
          have hcomma := congrArg dropSpace heq
          rw [List.append_assoc, List.append_assoc, List.cons_append, List.cons_append,
            dropSpace_append_cons before rfl, dropSpace_append_cons before' rfl] at hcomma
          have hdrop := congrArg dropSpace (List.cons.inj hcomma).2
          rwa [dropSpace_append behind, dropSpace_append behind', htext, htext'] at hdrop

/-- In white space there is no place for a part. -/
theorem IsSpace.ne_append_cons {ws : List Char} (h : IsSpace ws) (sep : List Char) {c : Char}
    (hc : isSpace c = false) (tail : List Char) : ws ≠ sep ++ c :: tail := by
  rintro rfl
  rw [isSpace_iff.2 (h c (by simp))] at hc
  cases hc

theorem IsSpace.ne_element {v : Json} {ws text : List Char} (h : IsSpace ws)
    (hv : Spells (.value v) text) (sep more : List Char) : ws ≠ sep ++ (text ++ more) := by
  obtain ⟨c, tail, rfl, hc, -⟩ := hv.value_begins
  exact h.ne_append_cons sep hc (tail ++ more)

theorem IsNumber.head {c : Char} {tail : List Char} (h : IsNumber (c :: tail)) :
    c = '-' ∨ c.isDigit = true := by
  obtain ⟨c', tail', heq, hc⟩ := h.begins
  cases heq
  exact hc

/-! ## §3. Values. -/

/-- No other value, or list of parts of the same kind, is spelled by the text. -/
def Alone : Part → List Char → Prop
  | .value v, text => ∀ w, Spells (.value w) text → v = w
  | .elements isFirst vs, text => ∀ ws, Spells (.elements isFirst ws) text → vs = ws
  | .members isFirst ms, text => ∀ ns, Spells (.members isFirst ns) text → ms = ns

/-- The words begin with letters of their own, and no number begins with any of these. -/
theorem alone_null : Alone (.value .null) ['n', 'u', 'l', 'l'] := by
  intro w hw
  cases hw with
  | null => rfl
  | number number => exact absurd number.head (by decide)

theorem alone_yes : Alone (.value (.boolean true)) ['t', 'r', 'u', 'e'] := by
  intro w hw
  cases hw with
  | yes => rfl
  | number number => exact absurd number.head (by decide)

theorem alone_no : Alone (.value (.boolean false)) ['f', 'a', 'l', 's', 'e'] := by
  intro w hw
  cases hw with
  | no => rfl
  | number number => exact absurd number.head (by decide)

theorem alone_number {text : List Char} (h : IsNumber text) :
    Alone (.value (.number text)) text := by
  intro w hw
  cases hw with
  | number => rfl
  | null | yes | no | string | array | object => exact absurd h.head (by decide)

theorem alone_string {pieces : List Piece} {body : List Char} (h : SpellsString pieces body) :
    Alone (.value (.string pieces)) ('"' :: (body ++ ['"'])) := by
  intro w hw
  generalize htext : '"' :: (body ++ ['"']) = text at hw
  cases hw with
  | string spelled =>
      cases List.append_cancel_right (List.cons.inj htext).2
      rw [h.unique spelled]
  | number number => subst htext; exact absurd number.head (by decide)
  | null | yes | no | array | object => cases htext

theorem alone_array {vs : List Json} {inner : List Char} (h : Alone (.elements true vs) inner) :
    Alone (.value (.array vs)) ('[' :: (inner ++ [']'])) := by
  intro w hw
  generalize htext : '[' :: (inner ++ [']']) = text at hw
  cases hw with
  | array spelled =>
      cases List.append_cancel_right (List.cons.inj htext).2
      rw [h _ spelled]
  | number number => subst htext; exact absurd number.head (by decide)
  | null | yes | no | string | object => cases htext

theorem alone_object {ms : List (List Piece × Json)} {inner : List Char}
    (h : Alone (.members true ms) inner) :
    Alone (.value (.object ms)) ('\x7b' :: (inner ++ ['\x7d'])) := by
  intro w hw
  generalize htext : '\x7b' :: (inner ++ ['\x7d']) = text at hw
  cases hw with
  | object spelled =>
      cases List.append_cancel_right (List.cons.inj htext).2
      rw [h _ spelled]
  | number number => subst htext; exact absurd number.head (by decide)
  | null | yes | no | string | array => cases htext

theorem alone_noElement {isFirst : Bool} {ws : List Char} (h : IsSpace ws) :
    Alone (.elements isFirst []) ws := by
  intro vs hvs
  cases hvs with
  | noElement => rfl
  | element separates head tail => exact absurd rfl (h.ne_element head _ _)

theorem alone_noMember {isFirst : Bool} {ws : List Char} (h : IsSpace ws) :
    Alone (.members isFirst []) ws := by
  intro ms hms
  cases hms with
  | noMember => rfl
  | member => exact absurd rfl (h.ne_append_cons _ rfl _)

/-- The first element is found, then where it ends, and then the others. -/
theorem alone_element {isFirst : Bool} {v : Json} {vs : List Json} {sep text more : List Char}
    (separates : Separates isFirst sep) (head : Spells (.value v) text)
    (tail : Spells (.elements false vs) more) (hhead : Alone (.value v) text)
    (htail : Alone (.elements false vs) more) :
    Alone (.elements isFirst (v :: vs)) (sep ++ (text ++ more)) := by
  intro ws hws
  generalize hwhole : sep ++ (text ++ more) = whole at hws
  cases hws with
  | noElement space => exact absurd hwhole.symm (space.ne_element head _ _)
  | @element _ _ _ sep' text' more' separates' head' tail' =>
      have hfront := separates.cut separates' (head.dropSpace_value .nil more)
        (head'.dropSpace_value .nil more') hwhole
      have hends := EndsNumber.of_spells tail (.inl ⟨_, rfl⟩) .square []
      have hends' := EndsNumber.of_spells tail' (.inl ⟨_, rfl⟩) .square []
      -- a closer behind both keeps a number at the end from going on
      have hclosed := congrArg (· ++ [Bracket.square.closer]) hfront
      simp only [List.append_assoc] at hclosed
      obtain ⟨rfl, hmore⟩ := value_cut head head' hends hends' hclosed
      cases List.append_cancel_right hmore
      rw [hhead _ head', htail _ tail']

theorem alone_member {isFirst : Bool} {name : List Piece} {v : Json}
    {ms : List (List Piece × Json)} {sep spelling ws ws' text more : List Char}
    (separates : Separates isFirst sep) (name_spelled : SpellsString name spelling)
    (space : IsSpace ws) (space' : IsSpace ws') (head : Spells (.value v) text)
    (tail : Spells (.members false ms) more) (hhead : Alone (.value v) text)
    (htail : Alone (.members false ms) more) :
    Alone (.members isFirst ((name, v) :: ms))
      (sep ++ ('"' :: (spelling ++ ('"' :: (ws ++ (':' :: (ws' ++ (text ++ more)))))))) := by
  intro ns hns
  generalize hwhole : sep ++ _ = whole at hns
  cases hns with
  | noMember space => exact absurd hwhole.symm (space.ne_append_cons _ rfl _)
  | @member _ name' v' ms' sep' spelling' ws₁ ws₁' text' more' separates' name_spelled' space₁
      space₁' head' tail' =>
      have hquoted := separates.cut separates' rfl rfl hwhole
      obtain ⟨rfl, hcolon⟩ := name_cut name_spelled name_spelled' (List.cons.inj hquoted).2
      have hvalue := congrArg dropSpace hcolon
      rw [dropSpace_append_cons space rfl, dropSpace_append_cons space₁ rfl] at hvalue
      have hfront := congrArg dropSpace (List.cons.inj hvalue).2
      rw [head.dropSpace_value space', head'.dropSpace_value space₁'] at hfront
      have hends := EndsNumber.of_spells tail (.inr ⟨_, rfl⟩) .curly []
      have hends' := EndsNumber.of_spells tail' (.inr ⟨_, rfl⟩) .curly []
      have hclosed := congrArg (· ++ [Bracket.curly.closer]) hfront
      simp only [List.append_assoc] at hclosed
      obtain ⟨rfl, hmore⟩ := value_cut head head' hends hends' hclosed
      cases List.append_cancel_right hmore
      rw [hhead _ head', htail _ tail']

/-- **Whatever the grammar spells, it spells alone.** -/
theorem alone_of_spells {part : Part} {text : List Char} (h : Spells part text) :
    Alone part text := by
  -- along one of the spellings; the other is opened where this one is
  induction h with
  | null => exact alone_null
  | yes => exact alone_yes
  | no => exact alone_no
  | number number => exact alone_number number
  | string spelled => exact alone_string spelled
  | array _ ih => exact alone_array ih
  | object _ ih => exact alone_object ih
  | noElement space => exact alone_noElement space
  | noMember space => exact alone_noMember space
  | element separates head tail ihhead ihtail =>
      exact alone_element separates head tail ihhead ihtail
  | member separates name_spelled space space' head tail ihhead ihtail =>
      exact alone_member separates name_spelled space space' head tail ihhead ihtail

/-- **A text is one value at most.** -/
theorem Spells.unique {v w : Json} {text : List Char} (h : Spells (.value v) text)
    (h' : Spells (.value w) text) : v = w :=
  alone_of_spells h w h'

/-! ## §4. Whole documents. -/

theorem EndsNumber.of_isSpace {ws : List Char} (h : IsSpace ws) : EndsNumber ws := by
  rw [← List.append_nil ws]
  exact .of_space h nofun

/-- **What is read of a text is what the value decodes to that the text is.** -/
theorem registry?_of_parse {text : String} {r : Registry} {before body after : List Char} {v : Json}
    (h : parse text = .ok r) (htext : text.toList = before ++ (body ++ after))
    (hbefore : IsSpace before) (hafter : IsSpace after) (hspells : Spells (.value v) body) :
    registry? v = some r := by
  obtain ⟨before', w, body', after', htext', hbefore', hafter', hspells', hw⟩ :=
    (parse_eq_ok_iff text r).1 h
  have hdrop := congrArg dropSpace (htext.symm.trans htext')
  rw [hspells.dropSpace_value hbefore, hspells'.dropSpace_value hbefore'] at hdrop
  obtain ⟨rfl, -⟩ := value_cut hspells hspells' (.of_isSpace hafter) (.of_isSpace hafter') hdrop
  rwa [hspells.unique hspells']

end Keyring.Document
