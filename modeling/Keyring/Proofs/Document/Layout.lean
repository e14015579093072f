/-
  Keyring.Proofs.Document.Layout
  ────────────────────────────────
  **PRINTED OBJECTS AND ARRAYS ARE READ PART BY PART.**

  The loops `membersUpTo` and `elementsUpTo` meet a printed block one part
  at a time: a comma, a new line, the part.  What happens to the state in
  between is a chain of single steps (`Taken`), so that a record, whose
  members differ, and a list of settings, whose members are alike, are the
  same case.  If the block breaks off, then within one of its parts or in
  front of one, and the loop comes as far as that.

  Main results:
    * `TakesLoop.cons` — a part more is a turn more of the loop;
    * `takesMembers_inside`, `takesElements_inside` — the parts of a printed
      block are read one by one, up to the closer, and none can be missing;
    * `Record.takes_printed` — a printed record is read as its draft is
      filled, member by member.
-/
import Keyring.Proofs.Document.StringLiteral

namespace Keyring.Document

open Reader

/-! ## §1. Blocks. -/

/-- The parts of a block after its first one, each behind a comma. -/
def laterParts (depth : Nat) (parts : List (List Char)) : List Char :=
  parts.flatMap fun part => ',' :: newLine (depth + 1) ++ part

theorem laterParts_cons (depth : Nat) (part : List Char) (parts : List (List Char))
    (rest : List Char) :
    laterParts depth (part :: parts) ++ rest
      = (',' :: newLine (depth + 1)) ++ (part ++ (laterParts depth parts ++ rest)) := by
  simp [laterParts]

/-- What stands between the brackets of a block. -/
def inside (depth : Nat) : List (List Char) → List Char
  | [] => []
  | part :: parts => newLine (depth + 1) ++ (part ++ (laterParts depth parts ++ newLine depth))

theorem block_eq (opening closing : Char) (depth : Nat) (parts : List (List Char)) :
    block opening closing depth parts = opening :: (inside depth parts ++ [closing]) := by
  cases parts <;> simp [block, inside, laterParts]

theorem separates_newLine (depth : Nat) : Separates true (newLine depth) :=
  .first (isSpace_newLine depth)

theorem separates_comma (depth : Nat) : Separates false (',' :: newLine depth) :=
  .later IsSpace.nil (isSpace_newLine depth)

/-- White space that breaks off in front of a closer is white space. -/
theorem IsSpace.of_breaks_off {ws front back : List Char} {closer : Char} (h : IsSpace ws)
    (htext : ws ++ [closer] = front ++ back) (hback : back ≠ []) : IsSpace front := by
  obtain ⟨between, rfl, hmore⟩ | ⟨between, rfl, -⟩ := breaks_off htext
  · cases between with
    | nil => rwa [List.append_nil]
    | cons c between =>
        obtain ⟨-, hnil⟩ := List.cons.inj hmore
        exact absurd (List.append_eq_nil_iff.1 hnil.symm).2 hback
  · exact fun c hc => h c (List.mem_append_left _ hc)

/-! ## §2. Loops. -/

/-- The loop takes this text and stops at the closer, under any bound that is long enough;
without the closer the text is too short for it. -/
structure TakesLoop (bracket : Bracket) (loop : List Char → Reader α) (text : List Char) (x : α) :
    Prop where
  reads : ∀ bound rest : List Char, text.length < bound.length →
    loop bound (text ++ bracket.closer :: rest) = .ok x (bracket.closer :: rest)
  starved : ∀ bound front back : List Char, text ++ [bracket.closer] = front ++ back →
    back ≠ [] → front.length ≤ bound.length → (loop bound front).TooShort

section Loops

variable {bracket : Bracket} {loop : List Char → Reader α} {isFirst : Bool} {y : α}

/-- Where no part comes any more there is white space at most. -/
theorem takesLoop_space {next : List Char → Bool → Reader α} {ws : List Char} (hws : IsSpace ws)
    (hempty : (loop [] []).TooShort)
    (hloop : ∀ c bound, loop (c :: bound) = (another bracket isFirst >>= next bound))
    (hstop : ∀ bound, next bound false = pure y) : TakesLoop bracket loop ws y where
  reads := by
    intro bound rest hbound
    cases bound with
    | nil => cases hbound
    | cons c bound =>
        rw [hloop, bind_eq_of_ok (another_end bracket isFirst hws rest), hstop]
        rfl
  starved := by
    intro bound front back htext hback hbound
    cases bound with
    | nil => rwa [List.length_eq_zero_iff.1 (Nat.le_zero.1 hbound)]
    | cons c bound =>
        rw [hloop]
        exact tooShort_bind (another_space bracket isFirst (hws.of_breaks_off htext hback)) _

/-- **A part more in front is a turn more.**  The loop has looked at the first character of the
part, and `first` reads the part from behind it. -/
theorem TakesLoop.cons {first : Reader β} {later : β → List Char → Reader α} {x : β} {c : Char}
    {sep body more : List Char} (hempty : (loop [] []).TooShort)
    (hshort : ∀ d bound front back, sep = front ++ back → (loop (d :: bound) front).TooShort)
    (hturn : ∀ d bound rest,
      loop (d :: bound) (sep ++ c :: rest) = (first >>= fun x => later x bound) rest)
    (head : Takes first body x) (tail : TakesLoop bracket (later x) more y) :
    TakesLoop bracket loop (sep ++ (c :: body ++ more)) y where
  reads := by
    intro bound rest hbound
    simp only [List.length_append, List.length_cons] at hbound
    cases bound with
    | nil => cases hbound
    | cons d bound =>
        rw [element_append, hturn, bind_eq_of_ok (head.reads _)]
        exact tail.reads bound rest (by simp only [List.length_cons] at hbound; omega)
  starved := by
    intro bound front back htext hback hbound
    cases bound with
    | nil => rwa [List.length_eq_zero_iff.1 (Nat.le_zero.1 hbound)]
    | cons d bound =>
        rw [element_append] at htext
        -- it breaks off before the part, within it or behind it
        obtain ⟨front, rfl, hpart⟩ | ⟨between, hfront, -⟩ := breaks_off htext
        · cases front with
          | nil => exact hshort d bound _ [] (by simp)
          | cons e front =>
              obtain ⟨rfl, hrest⟩ := List.cons.inj hpart
              rw [hturn]
              obtain ⟨front, rfl, hmore⟩ | ⟨between, hfront, hbetween⟩ := breaks_off hrest
              · rw [bind_eq_of_ok (head.reads front)]
                refine tail.starved bound front back hmore hback ?_
                simp only [List.length_append, List.length_cons] at hbound
                omega
              · exact tooShort_bind (head.starved front between hfront hbetween) _
        · exact hshort d bound front between hfront

/-- What is made of what the loop gives. -/
theorem TakesLoop.map {text : List Char} (h : TakesLoop bracket loop text y) (f : α → β) :
    TakesLoop bracket (fun bound => loop bound >>= fun y => pure (f y)) text (f y) where
  reads := fun bound rest hbound => bind_eq_of_ok (h.reads bound rest hbound) fun y => pure (f y)
  starved := fun bound front back htext hback hbound =>
    tooShort_bind (h.starved bound front back htext hback hbound) fun y => pure (f y)

/-- The text itself is a bound that is long enough. -/
theorem TakesLoop.whole {text : List Char} (h : TakesLoop bracket loop text y) :
    (∀ rest, loop (text ++ bracket.closer :: rest) (text ++ bracket.closer :: rest)
      = .ok y (bracket.closer :: rest))
      ∧ Starved (fun text => loop text text) (text ++ [bracket.closer]) :=
  ⟨fun rest => h.reads _ rest (by simp only [List.length_append, List.length_cons]; omega),
    fun front back htext hback => h.starved front front back htext hback (Nat.le_refl _)⟩

end Loops

/-! ## §3. Members. -/

/-- From the state `before` the members are read one by one, and lead to the state `after`. -/
inductive Taken (member : σ → String → Reader σ) :
    σ → List (String × List Char) → σ → Prop where
  | nil (state : σ) : Taken member state [] state
  | cons {before between after : σ} {name : String} {value : List Char}
      {items : List (String × List Char)}
      (head : Takes (member before name) (':' :: ' ' :: value) between)
      (tail : Taken member between items after) :
      Taken member before ((name, value) :: items) after

/-- The loop over members takes this text and goes from one state to the other. -/
def TakesMembers (member : σ → String → Reader σ) (isFirst : Bool) (text : List Char)
    (before after : σ) : Prop :=
  TakesLoop .curly (fun bound => membersUpTo member bound isFirst before) text after

theorem membersUpTo_nil (member : σ → String → Reader σ) (isFirst : Bool) (state : σ) :
    (membersUpTo member [] isFirst state []).TooShort := ⟨.endInObject, rfl, rfl⟩

theorem takesMembers_space (member : σ → String → Reader σ) (isFirst : Bool) {ws : List Char}
    (hws : IsSpace ws) (state : σ) : TakesMembers member isFirst ws state state :=
  takesLoop_space hws (membersUpTo_nil member isFirst state) (fun _ _ => rfl) fun _ => rfl

/-- A member more in front is a turn more. -/
theorem TakesMembers.cons {member : σ → String → Reader σ} {before between after : σ}
    {name : String} {value more sep : List Char} {isFirst : Bool}
    (hsep : Separates isFirst sep)
    (head : Takes (member before name) (':' :: ' ' :: value) between)
    (tail : TakesMembers member false more between after) :
    TakesMembers member isFirst (sep ++ (writtenMember name value ++ more)) before after :=
  TakesLoop.cons (membersUpTo_nil member isFirst before)
    (fun _ _ _ _ hfront => tooShort_bind (another_short hsep hfront) _)
    (membersUpTo_turn member before hsep) ((takes_written name).bind head) tail

theorem takesMembers_later {member : σ → String → Reader σ} {before after : σ}
    {items : List (String × List Char)} (taken : Taken member before items after) (depth : Nat) :
    TakesMembers member false
      (laterParts depth (items.map fun m => writtenMember m.1 m.2) ++ newLine depth)
      before after := by
  -- on the members still to come: the draft between two of them is the invariant of the loop
  induction taken with
  | nil state => exact takesMembers_space member false (isSpace_newLine depth) state
  | cons head tail ih =>
      rw [List.map_cons, laterParts_cons]
      exact ih.cons (separates_comma (depth + 1)) head

/-- The members of a printed object are read one by one. -/
theorem takesMembers_inside {member : σ → String → Reader σ} {before after : σ}
    {items : List (String × List Char)} (taken : Taken member before items after) (depth : Nat) :
    TakesMembers member true (inside depth (items.map fun m => writtenMember m.1 m.2))
      before after := by
  cases taken with
  | nil => exact takesMembers_space member true .nil before
  | cons head tail =>
      exact (takesMembers_later tail depth).cons (separates_newLine (depth + 1)) head

/-! ## §4. Elements. -/

/-- The loop over elements takes this text. -/
def TakesElements (element : Reader α) (isFirst : Bool) (text : List Char) (xs : List α) : Prop :=
  TakesLoop .square (fun bound => elementsUpTo element bound isFirst) text xs

theorem elementsUpTo_nil (element : Reader α) (isFirst : Bool) :
    (elementsUpTo element [] isFirst []).TooShort := ⟨.endInList, rfl, rfl⟩

theorem takesElements_space (element : Reader α) (isFirst : Bool) {ws : List Char}
    (hws : IsSpace ws) : TakesElements element isFirst ws [] :=
  takesLoop_space hws (elementsUpTo_nil element isFirst) (fun _ _ => rfl) fun _ => rfl

/-- An element more in front is a turn more. -/
theorem TakesElements.cons {element : Reader α} {written more sep : List Char} {x : α}
    {xs : List α} {isFirst : Bool} {c : Char} (hsep : Separates isFirst sep)
    (head : Takes element (c :: written) x) (hspace : isSpace c = false) (hcloser : c ≠ ']')
    (tail : TakesElements element false more xs) :
    TakesElements element isFirst (sep ++ (c :: written ++ more)) (x :: xs) :=
  TakesLoop.cons (elementsUpTo_nil element isFirst)
    (fun _ _ _ _ hfront => tooShort_bind (another_short hsep hfront) _)
    (elementsUpTo_turn element hsep hspace hcloser) head.afterFirst (tail.map (x :: ·))

/-- The elements after the first, each behind a comma.  Every one begins with a brace. -/
theorem takesElements_later {element : Reader α} {write : α → List Char} {xs : List α}
    (takes : ∀ x ∈ xs, Takes element (write x) x)
    (begins : ∀ x, ∃ text, write x = '\x7b' :: text) (depth : Nat) :
    TakesElements element false (laterParts depth (xs.map write) ++ newLine depth) xs := by
  induction xs with
  | nil => exact takesElements_space element false (isSpace_newLine depth)
  | cons x xs ih =>
      have htail := ih fun y hy => takes y (List.mem_cons_of_mem _ hy)
      have head := takes x List.mem_cons_self
      obtain ⟨text, htext⟩ := begins x
      rw [htext] at head
      rw [List.map_cons, laterParts_cons, htext]
      exact htail.cons (separates_comma (depth + 1)) head rfl (by decide)

/-- The elements of a printed array are read one by one. -/
theorem takesElements_inside {element : Reader α} {write : α → List Char} {xs : List α}
    (takes : ∀ x ∈ xs, Takes element (write x) x)
    (begins : ∀ x, ∃ text, write x = '\x7b' :: text) (depth : Nat) :
    TakesElements element true (inside depth (xs.map write)) xs := by
  cases xs with
  | nil => exact takesElements_space element true .nil
  | cons x xs =>
      have htail := takesElements_later (fun y hy => takes y (List.mem_cons_of_mem _ hy)) begins
        depth
      have head := takes x List.mem_cons_self
      obtain ⟨text, htext⟩ := begins x
      rw [htext] at head
      rw [List.map_cons, inside, htext]
      exact htail.cons (separates_newLine (depth + 1)) head rfl (by decide)

/-! ## §5. Records. -/

namespace Record

/-- A member that names a field not yet given is read by that field. -/
theorem takes_member {r : Record σ α} {field : Field σ} {name : String} {before after : σ}
    {value : List Char} (hfield : r.fields.find? (fun f => f.name == name) = some field)
    (hgiven : field.isGiven before = false)
    (hread : Takes (field.read before) (' ' :: value) after) :
    Takes (r.member before name) (':' :: ' ' :: value) after := by
  have hmember : ∀ text, r.member before name text
      = (colon >>= fun _ => field.read before) text := by
    intro text
    rw [member, hfield]
    show (if field.isGiven before = true then _ else _ : Reader σ) _ = _
    rw [if_neg (by simp [hgiven])]
  refine ⟨fun rest => (hmember _).trans (hread.reads rest), .cons ?_ ?_⟩
  · rw [hmember]
    exact ⟨.endInObject, rfl, rfl⟩
  · intro front back htext hback
    show (r.member before name (':' :: front)).TooShort
    rw [hmember]
    exact hread.starved front back htext hback

/-- **A printed record is taken as its draft is filled.** -/
theorem takes_printed {r : Record σ α} {items : List (String × List Char)} {after : σ} {x : α}
    (taken : Taken r.member r.draft items after) (hcomplete : r.complete after = .ok x)
    (depth : Nat) : Takes r.read (writtenObject depth items) x := by
  obtain ⟨hreads, hstarved⟩ := (takesMembers_inside taken depth).whole
  have hcontents : Takes (enclosed .curly r.ofMembers)
      (inside depth (items.map fun m => writtenMember m.1 m.2) ++ ['\x7d']) x := by
    refine takes_enclosed .curly (fun rest => ?_) fun front back htext hback => ?_
    · refine (bind_eq_of_ok (hreads rest) _).trans ?_
      rw [hcomplete]
      rfl
    · exact tooShort_bind (hstarved front back htext hback) _
  rw [writtenObject, block_eq]
  exact ⟨hcontents.reads, .cons ⟨.endInValue, rfl, rfl⟩ hcontents.starved⟩

end Record

end Keyring.Document
