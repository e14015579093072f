/-
  Keyring.Proofs.Document.Skipping
  ────────────────────────────────
  **A MEMBER THAT NOBODY ASKED FOR MAY HOLD ANY VALUE.**

  `ignored` passes over a value of any kind and depth, and over nothing
  but values: where it stops, a value of the grammar has ended.  What
  follows must end it if it is a number.

  Nested values are taken in two directions.  From the reader to the
  grammar the proof follows the bound on the depth; from the grammar to
  the reader it follows the spelling, and the bound is counted out by the
  characters: two steps for each.

  Main results:
    * `ignored_sound` — what is passed over is a value;
    * `ignored_complete` — every value is passed over.
-/
import Keyring.Proofs.Document.Numbers
import Keyring.Proofs.Document.Spelling

namespace Keyring.Document

open Reader

/-! ## §1. Values without parts. -/

theorem word_iff {letters : List Char} :
    ∀ {text rest : List Char}, word letters text = .ok () rest ↔ text = letters ++ rest := by
  induction letters with
  | nil =>
      intro text rest
      exact ⟨fun h => (Outcome.ok.inj h).2, fun h => by rw [h]; rfl⟩
  | cons letter letters ih =>
      intro text rest
      constructor
      · intro h
        unfold word at h
        split at h
        · next heq => cases heq
        · cases h
        · next heq =>
          cases heq
          split at h
          · next hc => rw [hc, ih.1 h]; rfl
          · cases h
      · rintro rfl
        show (if letter = letter then word letters (letters ++ rest) else _) = _
        rw [if_pos rfl, ih.2 rfl]

theorem ignoredScalar_sound {text rest : List Char} (h : ignoredScalar text = .ok () rest) :
    ∃ v body, text = body ++ rest ∧ Spells (.value v) body := by
  unfold ignoredScalar at h
  split at h
  · cases h
  · rw [word_iff.1 h]
    exact ⟨.null, _, rfl, .null⟩
  · rw [word_iff.1 h]
    exact ⟨.boolean true, _, rfl, .yes⟩
  · rw [word_iff.1 h]
    exact ⟨.boolean false, _, rfl, .no⟩
  · obtain ⟨pieces, body, rfl, hspells⟩ := ignoredString_iff.1 h
    exact ⟨.string pieces, '"' :: (body ++ ['"']), by simp, .string hspells⟩
  · next c tail _ _ _ _ =>
    split at h
    · obtain ⟨n, mid, hnumeral, hpure⟩ := stages_of_bind h
      cases hpure
      obtain ⟨body, hbody, hnumber⟩ := numeral_sound hnumeral
      exact ⟨.number body, body, hbody, .number hnumber⟩
    · cases h

theorem ignoredScalar_number {body rest : List Char} (h : IsNumber body)
    (hrest : EndsNumber rest) : ignoredScalar (body ++ rest) = .ok () rest := by
  obtain ⟨n, hread⟩ := numeral_complete .invalidNumber h hrest
  obtain ⟨c, tail, rfl, hc⟩ := h.begins
  obtain ⟨-, -, -, -, hquote, -, -, hn, ht, hf⟩ := solid_of_number hc
  rw [List.cons_append, ignoredScalar]
  · rw [if_pos (by simpa using hc)]
    exact bind_eq_of_ok hread fun _ => pure ()
  · exact hn
  · exact ht
  · exact hf
  · exact hquote

/-! ## §2. The parts between two brackets. -/

/-- Passes over what comes before a part, or over the closer; says whether there is a part. -/
def ignoredStart (bracket : Bracket) (isFirst : Bool) : Reader Bool :=
  if isFirst then ignoredOpening bracket else ignoredSeparator bracket

theorem ignoredStart_sound {bracket : Bracket} {isFirst more : Bool} {text rest : List Char}
    (h : ignoredStart bracket isFirst text = .ok more rest) :
    if more then ∃ sep, text = sep ++ rest ∧ Separates isFirst sep
    else ∃ ws, text = ws ++ bracket.closer :: rest ∧ IsSpace ws := by
  obtain ⟨ws, hws, htext⟩ := space_dropSpace text
  unfold ignoredStart at h
  split at h
  · next hfirst =>
    unfold ignoredOpening at h
    split at h
    · cases h
    · next c tail hdrop =>
      rw [hdrop] at htext
      split at h
      · next hc =>
        cases h
        exact ⟨ws, hc ▸ htext, hws⟩
      · cases h
        exact ⟨ws, htext, hfirst ▸ .first hws⟩
  · next hfirst =>
    unfold ignoredSeparator at h
    split at h
    · cases h
    · next c tail hdrop =>
      rw [hdrop] at htext
      split at h
      · next hc =>
        cases h
        exact ⟨ws, hc ▸ htext, hws⟩
      split at h
      · next hc =>
        cases h
        have hlater : Separates false (ws ++ ',' :: []) := .later hws .nil
        refine ⟨ws ++ [','], by rw [htext, hc, List.append_assoc]; rfl, ?_⟩
        rwa [Bool.eq_false_iff.2 hfirst]
      · cases h

/-- At the closer, no part follows. -/
theorem ignoredStart_closer (bracket : Bracket) (isFirst : Bool) {ws : List Char}
    (hws : IsSpace ws) (rest : List Char) :
    ignoredStart bracket isFirst (ws ++ bracket.closer :: rest) = .ok false rest := by
  have hdrop : dropSpace (ws ++ bracket.closer :: rest) = bracket.closer :: rest :=
    dropSpace_append_cons hws (by cases bracket <;> rfl) rest
  cases isFirst with
  | true =>
      show ignoredOpening bracket _ = _
      rw [ignoredOpening, hdrop]
      exact if_pos rfl
  | false =>
      show ignoredSeparator bracket _ = _
      rw [ignoredSeparator, hdrop]
      exact if_pos rfl

/-- What separates two parts is passed over, but for white space before the next one. -/
theorem ignoredStart_part (bracket : Bracket) {isFirst : Bool} {sep : List Char} {c : Char}
    (h : Separates isFirst sep) (hc : isSpace c = false) (hcloser : c ≠ bracket.closer)
    (rest : List Char) :
    ∃ ws, IsSpace ws
      ∧ ignoredStart bracket isFirst (sep ++ c :: rest) = .ok true (ws ++ c :: rest) := by
  cases h with
  | first space =>
      refine ⟨[], .nil, ?_⟩
      show ignoredOpening bracket _ = _
      rw [ignoredOpening, dropSpace_append_cons space hc]
      exact if_neg hcloser
  | @later ws ws' space space' =>
      refine ⟨ws', space', ?_⟩
      have hcomma : ',' ≠ bracket.closer := by cases bracket <;> decide
      show ignoredSeparator bracket _ = _
      rw [List.append_assoc, ignoredSeparator, List.cons_append,
        dropSpace_append_cons space rfl]
      exact (if_neg hcomma).trans (if_pos rfl)

/-- Passes over a part, those after it and the closer. -/
def ignoredPart : Bracket → Nat → Reader Unit
  | .square => ignoredElements
  | .curly => ignoredMembers

/-- Passes over parts from what comes before the next one up to the closer. -/
def ignoredParts (bracket : Bracket) (isFirst : Bool) (bound : Nat) : Reader Unit := do
  if ← ignoredStart bracket isFirst then ignoredPart bracket bound

/-- A value begins with a bracket, and then its parts come, or it has none. -/
theorem ignoredUpToDepth_succ (bound : Nat) (text : List Char) :
    ignoredUpToDepth (bound + 1) text = match dropSpace text with
      | '[' :: rest => ignoredParts .square true bound rest
      | '\x7b' :: rest => ignoredParts .curly true bound rest
      | rest => ignoredScalar rest := by
  rw [ignoredUpToDepth]
  rfl

theorem ignoredParts_eq_ok {bracket : Bracket} {isFirst : Bool} {bound : Nat}
    {text rest : List Char} (h : ignoredParts bracket isFirst bound text = .ok () rest) :
    (∃ ws, text = ws ++ bracket.closer :: rest ∧ IsSpace ws)
      ∨ ∃ sep mid, text = sep ++ mid ∧ Separates isFirst sep
        ∧ ignoredPart bracket bound mid = .ok () rest := by
  obtain ⟨more, mid, hstart, hnext⟩ := stages_of_bind h
  have hsound := ignoredStart_sound hstart
  cases more with
  | false =>
      cases hnext
      exact .inl hsound
  | true =>
      obtain ⟨sep, htext, hsep⟩ := hsound
      exact .inr ⟨sep, mid, htext, hsep, hnext⟩

theorem ignoredParts_closer (bracket : Bracket) (isFirst : Bool) (bound : Nat) {ws : List Char}
    (hws : IsSpace ws) (rest : List Char) :
    ignoredParts bracket isFirst bound (ws ++ bracket.closer :: rest) = .ok () rest := by
  rw [ignoredParts, bind_eq_of_ok (ignoredStart_closer bracket isFirst hws rest)]
  rfl

theorem ignoredName_sound {text rest : List Char} (h : ignoredName text = .ok () rest) :
    ∃ ws pieces body, text = ws ++ '"' :: (body ++ '"' :: rest) ∧ IsSpace ws
      ∧ SpellsString pieces body := by
  obtain ⟨ws, hws, htext⟩ := space_dropSpace text
  unfold ignoredName at h
  split at h
  · cases h
  · next tail hdrop =>
    obtain ⟨pieces, body, rfl, hspells⟩ := ignoredString_iff.1 h
    exact ⟨ws, pieces, body, by rw [← hdrop]; exact htext, hws, hspells⟩
  · cases h

theorem colon_sound {text rest : List Char} (h : colon text = .ok () rest) :
    ∃ ws, text = ws ++ ':' :: rest ∧ IsSpace ws := by
  obtain ⟨ws, hws, htext⟩ := space_dropSpace text
  unfold colon at h
  split at h
  · cases h
  · next tail hdrop =>
    cases h
    exact ⟨ws, by rw [← hdrop]; exact htext, hws⟩
  · cases h

theorem colon_complete {ws : List Char} (hws : IsSpace ws) (rest : List Char) :
    colon (ws ++ ':' :: rest) = .ok () rest := by
  rw [colon, dropSpace_append_cons hws rfl]
  rfl

/-! ## §3. All values. -/

/-- Whatever is passed over under this bound on the depth belongs to the grammar. -/
structure SoundWithin (bound : Nat) : Prop where
  value : ∀ {text rest : List Char}, ignoredUpToDepth bound text = .ok () rest →
    ∃ ws v body, text = ws ++ (body ++ rest) ∧ IsSpace ws ∧ Spells (.value v) body
  elements : ∀ (isFirst : Bool) {text rest : List Char},
    ignoredParts .square isFirst bound text = .ok () rest →
      ∃ vs inner, text = inner ++ ']' :: rest ∧ Spells (.elements isFirst vs) inner
  members : ∀ (isFirst : Bool) {text rest : List Char},
    ignoredParts .curly isFirst bound text = .ok () rest →
      ∃ ms inner, text = inner ++ '\x7d' :: rest ∧ Spells (.members isFirst ms) inner

/-- Without a bound nothing is passed over but an empty array or object. -/
theorem soundWithin_zero : SoundWithin 0 where
  value := fun h => by cases h
  elements := by
    intro isFirst text rest h
    obtain ⟨ws, htext, hws⟩ | ⟨sep, mid, -, -, hnext⟩ := ignoredParts_eq_ok h
    · exact ⟨[], ws, htext, .noElement hws⟩
    · cases hnext
  members := by
    intro isFirst text rest h
    obtain ⟨ws, htext, hws⟩ | ⟨sep, mid, -, -, hnext⟩ := ignoredParts_eq_ok h
    · exact ⟨[], ws, htext, .noMember hws⟩
    · cases hnext

/-- A value hands what is left of the bound on to its parts, and a part to the next one. -/
theorem SoundWithin.succ {bound : Nat} (h : SoundWithin bound) : SoundWithin (bound + 1) where
  value := by
    intro text rest hread
    obtain ⟨ws, hws, htext⟩ := space_dropSpace text
    rw [ignoredUpToDepth_succ] at hread
    split at hread
    · next tail hdrop =>
      obtain ⟨vs, inner, rfl, hspells⟩ := h.elements true hread
      refine ⟨ws, .array vs, '[' :: (inner ++ [']']), ?_, hws, .array hspells⟩
      rw [htext, hdrop]
      simp
    · next tail hdrop =>
      obtain ⟨ms, inner, rfl, hspells⟩ := h.members true hread
      refine ⟨ws, .object ms, '\x7b' :: (inner ++ ['\x7d']), ?_, hws, .object hspells⟩
      rw [htext, hdrop]
      simp
    · obtain ⟨v, body, hbody, hspells⟩ := ignoredScalar_sound hread
      exact ⟨ws, v, body, by rw [← hbody]; exact htext, hws, hspells⟩
  elements := by
    intro isFirst text rest hread
    obtain ⟨ws, htext, hws⟩ | ⟨sep, mid, rfl, hsep, hnext⟩ := ignoredParts_eq_ok hread
    · exact ⟨[], ws, htext, .noElement hws⟩
    · obtain ⟨_, mid', hvalue, hmore⟩ := stages_of_bind hnext
      obtain ⟨ws, v, body, rfl, hws, hspells⟩ := h.value hvalue
      obtain ⟨vs, inner, rfl, hspells'⟩ := h.elements false hmore
      exact ⟨v :: vs, sep ++ ws ++ (body ++ inner), by simp,
        .element (hsep.append hws) hspells hspells'⟩
  members := by
    intro isFirst text rest hread
    obtain ⟨ws, htext, hws⟩ | ⟨sep, mid, rfl, hsep, hnext⟩ := ignoredParts_eq_ok hread
    · exact ⟨[], ws, htext, .noMember hws⟩
    · obtain ⟨_, mid₁, hname, hnext⟩ := stages_of_bind hnext
      obtain ⟨_, mid₂, hcolon, hnext⟩ := stages_of_bind hnext
      obtain ⟨_, mid₃, hvalue, hmore⟩ := stages_of_bind hnext
      obtain ⟨ws, pieces, spelling, rfl, hws, hpieces⟩ := ignoredName_sound hname
      obtain ⟨ws₁, rfl, hws₁⟩ := colon_sound hcolon
      obtain ⟨ws₂, v, body, rfl, hws₂, hspells⟩ := h.value hvalue
      obtain ⟨ms, inner, rfl, hspells'⟩ := h.members false hmore
      refine ⟨(pieces, v) :: ms, _, ?_,
        .member (hsep.append hws) hpieces hws₁ hws₂ hspells hspells'⟩
      simp

theorem soundWithin : ∀ bound : Nat, SoundWithin bound
  | 0 => soundWithin_zero
  | bound + 1 => (soundWithin bound).succ

/-- The reader for this part of the grammar passes over the text, whatever follows, if the bound
allows two steps for each character. -/
def Passed : Part → List Char → Prop
  | .value _, text => ∀ (bound : Nat) {ws rest : List Char}, IsSpace ws → EndsNumber rest →
    2 * text.length ≤ bound + 1 → ignoredUpToDepth bound (ws ++ (text ++ rest)) = .ok () rest
  | .elements isFirst _, text => ∀ (bound : Nat) (rest : List Char), 2 * text.length ≤ bound →
    ignoredParts .square isFirst bound (text ++ ']' :: rest) = .ok () rest
  | .members isFirst _, text => ∀ (bound : Nat) (rest : List Char), 2 * text.length ≤ bound →
    ignoredParts .curly isFirst bound (text ++ '\x7d' :: rest) = .ok () rest

/-- A value that begins with no bracket takes one step. -/
theorem passed_scalar {v : Json} {text : List Char} (h : Spells (.value v) text)
    (hsquare : ∀ tail, text ≠ '[' :: tail) (hcurly : ∀ tail, text ≠ '\x7b' :: tail)
    (hread : ∀ rest, EndsNumber rest → ignoredScalar (text ++ rest) = .ok () rest) :
    Passed (.value v) text := by
  intro bound ws rest hws hrest hbound
  obtain ⟨c, tail, rfl, -⟩ := h.value_begins
  cases bound with
  | zero => rw [List.length_cons] at hbound; omega
  | succ bound =>
      rw [ignoredUpToDepth_succ, h.dropSpace_value hws]
      split
      · next heq => exact absurd (by rw [(List.cons.inj heq).1]) (hsquare tail)
      · next heq => exact absurd (by rw [(List.cons.inj heq).1]) (hcurly tail)
      · exact hread rest hrest

/-- An array takes one step more than its elements. -/
theorem passed_array {vs : List Json} {inner : List Char}
    (h : Passed (.elements true vs) inner) :
    Passed (.value (.array vs)) ('[' :: (inner ++ [']'])) := by
  intro bound ws rest hws _ hbound
  simp only [List.length_cons, List.length_append, List.length_nil] at hbound
  cases bound with
  | zero => omega
  | succ bound =>
      have hdrop := dropSpace_append_cons hws (c := '[') rfl (inner ++ ']' :: rest)
      rw [show ws ++ ('[' :: (inner ++ [']']) ++ rest) = ws ++ '[' :: (inner ++ ']' :: rest) by
        simp, ignoredUpToDepth_succ, hdrop]
      exact h bound rest (by omega)

/-- An object takes one step more than its members. -/
theorem passed_object {ms : List (List Piece × Json)} {inner : List Char}
    (h : Passed (.members true ms) inner) :
    Passed (.value (.object ms)) ('\x7b' :: (inner ++ ['\x7d'])) := by
  intro bound ws rest hws _ hbound
  simp only [List.length_cons, List.length_append, List.length_nil] at hbound
  cases bound with
  | zero => omega
  | succ bound =>
      have hdrop := dropSpace_append_cons hws (c := '\x7b') rfl (inner ++ '\x7d' :: rest)
      rw [show ws ++ ('\x7b' :: (inner ++ ['\x7d']) ++ rest)
          = ws ++ '\x7b' :: (inner ++ '\x7d' :: rest) by simp, ignoredUpToDepth_succ, hdrop]
      exact h bound rest (by omega)

/-- An element in front of those that are passed over. -/
theorem passed_element {isFirst : Bool} {v : Json} {vs : List Json} {sep text more : List Char}
    (separates : Separates isFirst sep) (head : Spells (.value v) text)
    (tail : Spells (.elements false vs) more) (hhead : Passed (.value v) text)
    (htail : Passed (.elements false vs) more) :
    Passed (.elements isFirst (v :: vs)) (sep ++ (text ++ more)) := by
  intro bound rest hbound
  obtain ⟨c, text, rfl, hc, -, hcloser, -⟩ := head.value_begins
  simp only [List.length_append, List.length_cons] at hbound
  obtain ⟨ws, hws, hstart⟩ := ignoredStart_part .square separates hc hcloser
    (text ++ (more ++ ']' :: rest))
  cases bound with
  | zero => omega
  | succ bound =>
      have hvalue := hhead bound hws (.of_spells tail (.inl ⟨_, rfl⟩) .square rest)
        (by rw [List.length_cons]; omega)
      have hmore := htail bound rest (by omega)
      rw [element_append, ignoredParts, bind_eq_of_ok hstart]
      show (ignoredUpToDepth bound >>= fun _ => ignoredParts .square false bound) _ = _
      exact (bind_eq_of_ok hvalue _).trans hmore

/-- A member in front of those that are passed over. -/
theorem passed_member {isFirst : Bool} {name : List Piece} {v : Json}
    {ms : List (List Piece × Json)} {sep spelling ws ws' text more : List Char}
    (separates : Separates isFirst sep) (name_spelled : SpellsString name spelling)
    (space : IsSpace ws) (space' : IsSpace ws') (tail : Spells (.members false ms) more)
    (hhead : Passed (.value v) text) (htail : Passed (.members false ms) more) :
    Passed (.members isFirst ((name, v) :: ms))
      (sep ++ ('"' :: (spelling ++ ('"' :: (ws ++ (':' :: (ws' ++ (text ++ more)))))))) := by
  intro bound rest hbound
  simp only [List.length_append, List.length_cons] at hbound
  obtain ⟨ws₀, hws₀, hstart⟩ := ignoredStart_part .curly separates (c := '"') rfl
    (by decide) (spelling ++ '"' :: (ws ++ ':' :: (ws' ++ (text ++ (more ++ '\x7d' :: rest)))))
  have hname : ignoredName (ws₀ ++ '"' :: (spelling ++ '"' ::
      (ws ++ ':' :: (ws' ++ (text ++ (more ++ '\x7d' :: rest))))))
      = .ok () (ws ++ ':' :: (ws' ++ (text ++ (more ++ '\x7d' :: rest)))) := by
    rw [ignoredName, dropSpace_append_cons hws₀ rfl]
    exact ignoredString_iff.2 ⟨name, spelling, rfl, name_spelled⟩
  cases bound with
  | zero => omega
  | succ bound =>
      have hvalue := hhead bound space' (.of_spells tail (.inr ⟨_, rfl⟩) .curly rest) (by omega)
      have hmore := htail bound rest (by omega)
      rw [member_append, ignoredParts, bind_eq_of_ok hstart]
      show (ignoredName >>= fun _ => colon >>= fun _ => ignoredUpToDepth bound >>= fun _ =>
        ignoredParts .curly false bound) _ = _
      rw [bind_eq_of_ok hname, bind_eq_of_ok (colon_complete space _)]
      exact (bind_eq_of_ok hvalue _).trans hmore

/-- **Whatever the grammar spells is passed over.** -/
theorem passed_of_spells {part : Part} {text : List Char} (h : Spells part text) :
    Passed part text := by
  -- along the spelling; only the length of the text bounds the depth
  induction h with
  | null =>
      refine passed_scalar .null (fun _ h => by cases h) (fun _ h => by cases h) fun rest _ => ?_
      exact word_iff.2 rfl
  | yes =>
      refine passed_scalar .yes (fun _ h => by cases h) (fun _ h => by cases h) fun rest _ => ?_
      exact word_iff.2 rfl
  | no =>
      refine passed_scalar .no (fun _ h => by cases h) (fun _ h => by cases h) fun rest _ => ?_
      exact word_iff.2 rfl
  | number number =>
      obtain ⟨c, tail, rfl, hc⟩ := number.begins
      obtain ⟨-, -, -, -, -, hsquare, hcurly, -⟩ := solid_of_number hc
      exact passed_scalar (.number number) (fun _ heq => hsquare (List.cons.inj heq).1)
        (fun _ heq => hcurly (List.cons.inj heq).1) fun rest hrest =>
          ignoredScalar_number number hrest
  | @string pieces body spelled =>
      refine passed_scalar (.string spelled) (fun _ h => by cases h) (fun _ h => by cases h)
        fun rest _ => ignoredString_iff.2 ⟨pieces, body, ?_, spelled⟩
      simp
  | array _ ih => exact passed_array ih
  | object _ ih => exact passed_object ih
  | noElement space => exact fun _ _ _ => ignoredParts_closer .square _ _ space _
  | noMember space => exact fun _ _ _ => ignoredParts_closer .curly _ _ space _
  | element separates head tail ihhead ihtail =>
      exact passed_element separates head tail ihhead ihtail
  | member separates name_spelled space space' _ tail ihhead ihtail =>
      exact passed_member separates name_spelled space space' tail ihhead ihtail

/-- **What is passed over is a value.** -/
theorem ignored_sound {text rest : List Char} (h : ignored text = .ok () rest) :
    ∃ ws v body, text = ws ++ (body ++ rest) ∧ IsSpace ws ∧ Spells (.value v) body :=
  (soundWithin _).value h

/-- **Every value is passed over, to any depth.** -/
theorem ignored_complete {v : Json} {ws body rest : List Char} (hws : IsSpace ws)
    (h : Spells (.value v) body) (hrest : EndsNumber rest) :
    ignored (ws ++ (body ++ rest)) = .ok () rest := by
  refine passed_of_spells h _ hws hrest ?_
  simp only [List.length_append]
  omega

end Keyring.Document
