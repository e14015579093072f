/-
  Keyring.Proofs.Document.Reading
  ────────────────────────────────
  **THREE VIEWS OF A READER.**

      Reads reader text value — `reader` takes exactly `text` off the front,
                                whatever follows, and gives `value`
      Starved reader text     — on anything that breaks off within `text`
                                `reader` says that the text ends too soon
      Yields reader P         — whatever `reader` gives, on any text, has `P`

  The first is what printing needs of reading, and with the second
  (`Takes`) it says that nothing less than the printed text will do; the
  third is what the rest of the program may take for granted of a registry
  that was read.  All are closed under reading one thing after another.

  Main results:
    * `Takes.bind`, `Yields.bind` — the views compose;
    * `enclosed_eq_ok` — contents that stop at the closer are closed;
    * `another_sound`, `another_part`, `another_end` — where a part of an
      object or array begins, and where there is none;
    * `another_short` — where that cannot be told yet;
    * `elementsUpTo_turn`, `membersUpTo_turn` — a turn of the loops over
      these parts.
-/
import Keyring.Document.Print
import Keyring.Proofs.Document.Grammar

namespace Keyring.Document

/-- The text is said to end too soon, at its very end. -/
def Outcome.TooShort (outcome : Outcome α) : Prop :=
  ∃ fault, outcome = .fail fault 0 ∧ fault.category = .endOfText

namespace Reader

/-! ## §1. One thing after another. -/

/-- The reader takes exactly this text off the front, whatever follows, and gives the value. -/
def Reads (reader : Reader α) (text : List Char) (value : α) : Prop :=
  ∀ rest, reader (text ++ rest) = .ok value rest

/-- Whatever breaks off within this text is too short for the reader. -/
def Starved (reader : Reader α) (text : List Char) : Prop :=
  ∀ front back, text = front ++ back → back ≠ [] → (reader front).TooShort

/-- The reader takes exactly this text, whatever follows, and nothing that breaks off within it. -/
structure Takes (reader : Reader α) (text : List Char) (value : α) : Prop where
  reads : Reads reader text value
  starved : Starved reader text

/-- Whatever the reader gives has the property. -/
def Yields (reader : Reader α) (P : α → Prop) : Prop :=
  ∀ text value rest, reader text = .ok value rest → P value

theorem bind_apply (first : Reader α) (next : α → Reader β) (text : List Char) :
    (first >>= next) text = match first text with
      | .ok value rest => next value rest
      | .fail fault left => .fail fault left
      | .mismatch cause rest => .mismatch cause rest := rfl

theorem bind_eq_of_ok {first : Reader α} {text rest : List Char} {value : α}
    (h : first text = .ok value rest) (next : α → Reader β) :
    (first >>= next) text = next value rest := by
  rw [bind_apply, h]

/-- What comes of reading one thing after another came of the two. -/
theorem stages_of_bind {first : Reader α} {next : α → Reader β} {text rest : List Char} {y : β}
    (h : (first >>= next) text = .ok y rest) :
    ∃ x mid, first text = .ok x mid ∧ next x mid = .ok y rest := by
  rw [bind_apply] at h
  cases hx : first text with
  | ok x mid => exact ⟨x, mid, rfl, by rw [hx] at h; exact h⟩
  | fail fault left => rw [hx] at h; cases h
  | mismatch cause left => rw [hx] at h; cases h

theorem pure_eq_ok {x y : α} {text rest : List Char}
    (h : (pure x : Reader α) text = .ok y rest) : x = y ∧ text = rest :=
  Outcome.ok.inj h

theorem tooShort_bind {first : Reader α} {text : List Char}
    (h : (first text).TooShort) (next : α → Reader β) : ((first >>= next) text).TooShort := by
  obtain ⟨fault, hfirst, hfault⟩ := h
  exact ⟨fault, by rw [bind_apply, hfirst], hfault⟩

/-- A text breaks off behind what stands at its front, or within it. -/
theorem breaks_off {text more front back : List Char} (h : text ++ more = front ++ back) :
    (∃ between, front = text ++ between ∧ more = between ++ back)
      ∨ ∃ between, text = front ++ between ∧ between ≠ [] := by
  obtain ⟨between, hfront, hmore⟩ | ⟨between, htext, hback⟩ := List.append_eq_append_iff.1 h
  · exact .inl ⟨between, hfront, hmore⟩
  · by_cases hnil : between = []
    · subst hnil
      exact .inl ⟨[], by simpa using htext.symm, by simpa using hback.symm⟩
    · exact .inr ⟨between, htext, hnil⟩

theorem starved_nil (reader : Reader α) : Starved reader [] := by
  intro front back htext hback
  exact absurd (List.append_eq_nil_iff.1 htext.symm).2 hback

/-- A text with a first character breaks off before it or after. -/
theorem Starved.cons {reader : Reader α} {c : Char} {text : List Char}
    (hnil : (reader []).TooShort) (hcons : Starved (fun front => reader (c :: front)) text) :
    Starved reader (c :: text) := by
  intro front back htext hback
  cases front with
  | nil => exact hnil
  | cons d front =>
      obtain ⟨rfl, hrest⟩ := List.cons.inj htext
      exact hcons front back hrest hback

theorem takes_pure (x : α) : Takes (pure x : Reader α) [] x where
  reads := fun _ => rfl
  starved := starved_nil _

theorem Takes.bind {first : Reader α} {next : α → Reader β} {text text' : List Char} {x : α}
    {y : β} (hfirst : Takes first text x) (hnext : Takes (next x) text' y) :
    Takes (first >>= next) (text ++ text') y where
  reads := by
    intro rest
    rw [List.append_assoc, bind_eq_of_ok (hfirst.reads (text' ++ rest))]
    exact hnext.reads rest
  starved := by
    intro front back htext hback
    obtain ⟨between, rfl, hmore⟩ | ⟨between, htext, hbetween⟩ := breaks_off htext
    · rw [bind_eq_of_ok (hfirst.reads between)]
      exact hnext.starved between back hmore hback
    · exact tooShort_bind (hfirst.starved front between htext hbetween) next

/-- What is taken behind a first character. -/
theorem Takes.afterFirst {reader : Reader α} {c : Char} {text : List Char} {x : α}
    (h : Takes reader (c :: text) x) : Takes (fun rest => reader (c :: rest)) text x where
  reads := h.reads
  starved := fun front back htext hback => h.starved (c :: front) back (by rw [htext]; rfl) hback

/-- What is made of the value read is what is read. -/
theorem Takes.map {reader : Reader α} {text : List Char} {x : α} (h : Takes reader text x)
    (f : α → β) : Takes (reader >>= fun x => pure (f x)) text (f x) := by
  have hmapped : Takes (reader >>= fun x => pure (f x)) (text ++ []) (f x) :=
    h.bind (takes_pure (f x))
  rwa [List.append_nil] at hmapped

theorem Yields.bind {first : Reader α} {next : α → Reader β} {P : α → Prop} {Q : β → Prop}
    (hfirst : Yields first P) (hnext : ∀ x, P x → Yields (next x) Q) :
    Yields (first >>= next) Q := by
  intro text y rest h
  obtain ⟨x, mid, hx, hy⟩ := stages_of_bind h
  exact hnext x (hfirst text x mid hx) mid y rest hy

theorem yields_pure {P : α → Prop} {x : α} (h : P x) : Yields (pure x) P := by
  intro text y rest hy
  cases hy
  exact h

theorem yields_true (reader : Reader α) : Yields reader fun _ => True :=
  fun _ _ _ _ => trivial

/-- A reader that only refuses gives nothing. -/
theorem yields_reject (cause : Mismatch) (P : α → Prop) : Yields (reject cause) P := by
  intro text y rest hy
  cases hy

theorem yields_wrongType (expected : String) (P : α → Prop) : Yields (wrongType expected) P :=
  (yields_true found).bind fun _ _ _ _ _ hy => by cases hy

/-! ## §2. White space. -/

theorem dropSpace_cons {c : Char} (h : isSpace c = false) (text : List Char) :
    dropSpace (c :: text) = c :: text :=
  dropSpace_append_cons IsSpace.nil h text

/-- A new line with its indentation is white space. -/
theorem isSpace_newLine (depth : Nat) : IsSpace (newLine depth) := by
  intro c hc
  rcases List.mem_cons.1 hc with rfl | hc
  · exact .inr (.inr (.inl rfl))
  · exact .inl (List.eq_of_mem_replicate hc)

/-! ## §3. Brackets. -/

theorem isSpace_closer (bracket : Bracket) : isSpace bracket.closer = false := by
  cases bracket <;> rfl

theorem attemptClose_sound {bracket : Bracket} {text rest : List Char}
    (h : attemptClose bracket text = (none, rest)) :
    ∃ ws, text = ws ++ bracket.closer :: rest ∧ IsSpace ws := by
  obtain ⟨ws, hws, htext⟩ := space_dropSpace text
  unfold attemptClose at h
  split at h
  · cases h
  · next c tail hdrop =>
    split at h
    · next hc =>
      cases h
      exact ⟨ws, by rw [htext, hdrop, hc], hws⟩
    · split at h
      · split at h
        · cases h
        · split at h <;> cases h
      · cases h

theorem attemptClose_complete (bracket : Bracket) {ws : List Char} (hws : IsSpace ws)
    (rest : List Char) : attemptClose bracket (ws ++ bracket.closer :: rest) = (none, rest) := by
  rw [attemptClose, dropSpace_append_cons hws (isSpace_closer bracket)]
  exact if_pos rfl

/-- Contents that stop at the closer are closed. -/
theorem enclosed_eq_ok {bracket : Bracket} {contents : Reader α} {text rest : List Char} {x : α}
    (h : contents text = .ok x (bracket.closer :: rest)) :
    enclosed bracket contents text = .ok x rest := by
  have hclose := attemptClose_complete bracket IsSpace.nil rest
  simp only [enclosed, h, show attemptClose bracket (bracket.closer :: rest) = _ from hclose]

/-- Contents that are taken up to the closer, and that miss it, are taken with it. -/
theorem takes_enclosed (bracket : Bracket) {contents : Reader α} {text : List Char} {x : α}
    (hreads : ∀ rest, contents (text ++ bracket.closer :: rest) = .ok x (bracket.closer :: rest))
    (hstarved : Starved contents (text ++ [bracket.closer])) :
    Takes (enclosed bracket contents) (text ++ [bracket.closer]) x where
  reads := by
    intro rest
    rw [List.append_assoc, List.singleton_append]
    exact enclosed_eq_ok (hreads rest)
  starved := by
    intro front back htext hback
    obtain ⟨fault, hcontents, hfault⟩ := hstarved front back htext hback
    refine ⟨fault, ?_, hfault⟩
    rw [enclosed, hcontents]

theorem Yields.enclosed {contents : Reader α} {P : α → Prop} (h : Yields contents P)
    (bracket : Bracket) : Yields (enclosed bracket contents) P := by
  intro text y rest hy
  rw [Reader.enclosed] at hy
  cases hx : contents text with
  | ok x mid =>
      simp only [hx] at hy
      split at hy
      · cases hy
        exact h text _ mid hx
      · cases hy
  | fail fault left => rw [hx] at hy; cases hy
  | mismatch cause left => rw [hx] at hy; cases hy

theorem another_sound {bracket : Bracket} {isFirst more : Bool} {text rest : List Char}
    (h : another bracket isFirst text = .ok more rest) :
    if more then ∃ sep, text = sep ++ rest ∧ Separates isFirst sep
    else ∃ ws, text = ws ++ rest ∧ IsSpace ws := by
  obtain ⟨ws, hws, htext⟩ := space_dropSpace text
  unfold another at h
  split at h
  · cases h
  · next c tail hdrop =>
    rw [hdrop] at htext
    split at h
    · cases h
      exact ⟨ws, htext, hws⟩
    split at h
    · next hfirst =>
      cases h
      exact ⟨ws, htext, hfirst ▸ .first hws⟩
    · next hlater =>
      rw [Bool.eq_false_iff.2 hlater]
      split at h
      · next hc =>
        -- behind the comma comes a part, and no closer
        obtain ⟨ws', hws', htail⟩ := space_dropSpace tail
        split at h
        · cases h
        · next d tail' hdrop' =>
          split at h
          · cases h
          · cases h
            refine ⟨ws ++ ',' :: ws', ?_, .later hws hws'⟩
            rw [htext, hc, htail, hdrop']
            simp
      · cases h

theorem another_end (bracket : Bracket) (isFirst : Bool) {ws : List Char} (hws : IsSpace ws)
    (rest : List Char) : another bracket isFirst (ws ++ bracket.closer :: rest)
      = .ok false (bracket.closer :: rest) := by
  rw [another, dropSpace_append_cons hws (isSpace_closer bracket)]
  exact if_pos rfl

theorem another_part (bracket : Bracket) {isFirst : Bool} {sep : List Char} {c : Char}
    (h : Separates isFirst sep) (hc : isSpace c = false) (hcloser : c ≠ bracket.closer)
    (rest : List Char) : another bracket isFirst (sep ++ c :: rest) = .ok true (c :: rest) := by
  cases h with
  | first space =>
      rw [another, dropSpace_append_cons space hc]
      exact (if_neg hcloser).trans (if_pos rfl)
  | @later ws ws' space space' =>
      have hcomma : ',' ≠ bracket.closer := by cases bracket <;> decide
      have hdrop := dropSpace_append_cons space (c := ',') rfl (ws' ++ c :: rest)
      have hdrop' := dropSpace_append_cons space' hc rest
      rw [List.append_assoc, another, List.cons_append, hdrop]
      simp only [if_neg hcomma, if_true, Bool.false_eq_true, if_false, hdrop', if_neg hcloser]

/-- Where only white space is left, no part follows and none can be missed. -/
theorem another_space (bracket : Bracket) (isFirst : Bool) {ws : List Char} (hws : IsSpace ws) :
    (another bracket isFirst ws).TooShort := by
  refine ⟨bracket.unfinished, ?_, by cases bracket <;> rfl⟩
  rw [another, dropSpace_isSpace hws]

/-- What comes before a part does not tell that there is one. -/
theorem another_short {bracket : Bracket} {isFirst : Bool} {sep front back : List Char}
    (h : Separates isFirst sep) (hsep : sep = front ++ back) :
    (another bracket isFirst front).TooShort := by
  cases h with
  | first space => exact another_space bracket true fun c hc => space c (by simp [hsep, hc])
  | @later ws ws' space space' =>
      obtain ⟨more, rfl, hmore⟩ | ⟨more, hws, -⟩ := breaks_off hsep
      · cases more with
        | nil => exact another_space bracket false fun c hc => space c (by simpa using hc)
        | cons c more =>
            -- behind the comma there is white space at most
            obtain ⟨rfl, rfl⟩ := List.cons.inj hmore
            have hcomma : ',' ≠ bracket.closer := by cases bracket <;> decide
            have hmore : dropSpace more = [] :=
              dropSpace_isSpace fun c hc => space' c (List.mem_append_left back hc)
            refine ⟨.endInValue, ?_, rfl⟩
            rw [another, dropSpace_append_cons space rfl]
            simp only [if_neg hcomma, Bool.false_eq_true, if_false, if_true, hmore]
      · exact another_space bracket false fun c hc => space c (by simp [hws, hc])

/-! ## §4. Loops over parts. -/

/-- One turn of the loop, where an element begins: the element, and the loop once more. -/
theorem elementsUpTo_turn (element : Reader α) {isFirst : Bool} {sep : List Char} {c : Char}
    (hsep : Separates isFirst sep) (hspace : isSpace c = false) (hcloser : c ≠ ']') (d : Char)
    (bound rest : List Char) :
    elementsUpTo element (d :: bound) isFirst (sep ++ c :: rest)
      = (element >>= fun x => elementsUpTo element bound false >>= fun xs => pure (x :: xs))
          (c :: rest) := by
  rw [elementsUpTo, bind_eq_of_ok (another_part .square hsep hspace hcloser rest)]
  rfl

/-- One turn of the loop, where a member begins: its name, its value, and the loop once more. -/
theorem membersUpTo_turn (member : σ → String → Reader σ) {isFirst : Bool} (before : σ)
    {sep : List Char} (hsep : Separates isFirst sep) (c : Char) (bound rest : List Char) :
    membersUpTo member (c :: bound) isFirst before (sep ++ '"' :: rest)
      = ((stringBody >>= member before) >>= membersUpTo member bound false) rest := by
  have hanother := another_part .curly hsep (c := '"') rfl (by decide) rest
  rw [membersUpTo, bind_eq_of_ok hanother]
  show (stringBody >>= fun name => member before name >>= membersUpTo member bound false) rest = _
  rw [bind_apply, bind_apply, bind_apply]
  cases stringBody rest <;> rfl

end Reader

end Keyring.Document
