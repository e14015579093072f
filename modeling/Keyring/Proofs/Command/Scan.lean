/-
  Keyring.Proofs.Command.Scan
  ────────────────────────────────
  **WHAT A LEVEL CAN BE GIVEN.**

  However the arguments are spelled, a level is given one option or operand
  after another, beginning with nothing.  `Given.Arises` says just this and
  forgets the spelling; what is true of all that arises is true of all that
  is read.

  Main results:
    * `arises_of_scan` — whatever is read arises in this way;
    * `Given.Arises.isTyped` — each option has a value of its own kind, so
      that an option that is given can be looked up.
-/
import Keyring.Command.Scan
import Keyring.Proofs.Steps

namespace Keyring.Command

/-! ## §1. One option or operand after another. -/

/-- What an option with this value takes. -/
def Value.kind : Value → Takes
  | .flag => .nothing
  | .path _ => .path
  | .text _ => .text

/-- The ways in which a level comes to what it is given. -/
inductive Given.Arises (level : Level) : Given → Prop where
  | nothing : Arises level .nothing
  /-- An option of the level is added, with what it takes. -/
  | option {g next : Given} {o : Opt} {value : Value} (before : Arises level g)
      (kind : value.kind = o.takes) (added : g.add o value = .ok next) : Arises level next
  /-- An operand is added. -/
  | operand {g : Given} (before : Arises level g) (text : String) :
      Arises level { g with operands := g.operands ++ [text] }

variable {level : Level} {g next : Given} {o : Opt} {value : Value}

/-- An option without a value that is taken is added; the version and help are never taken. -/
theorem add_of_takeFlag (h : takeFlag g o = .ok next) : g.add o .flag = .ok next := by
  cases o with
  | version => cases h
  | help => cases h
  | _ => exact h

theorem kind_of_readValue {bytes : Bytes} (h : readValue o bytes = .ok value) :
    value.kind = o.takes := by
  unfold readValue at h
  split at h
  · cases h
  · next htakes =>
    split at h
    · cases h
    · cases h
      exact htakes.symm
  · next htakes =>
    obtain ⟨text, -, rfl⟩ := map_eq_ok h
    exact htakes.symm

/-- Only options without values have letters. -/
theorem takes_of_short? {letter : Char} (h : o.short? = some letter) : o.takes = .nothing := by
  cases o with
  | verbose => rfl
  | version => rfl
  | help => rfl
  | _ => cases h

namespace Given.Arises

theorem takeFlag (h : g.Arises level) (hbare : o.takes = .nothing)
    (htake : takeFlag g o = .ok next) : next.Arises level := by
  have hkind : Value.flag.kind = o.takes := hbare.symm
  exact h.option hkind (add_of_takeFlag htake)

theorem takeValue {bytes : Bytes} (h : g.Arises level) (htake : takeValue g o bytes = .ok next) :
    next.Arises level := by
  obtain ⟨value, hread, hadd⟩ := bind_eq_ok htake
  exact h.option (kind_of_readValue hread) hadd

theorem takeLetters {letters : Bytes} (h : g.Arises level)
    (htake : takeLetters level g letters = .ok next) : next.Arises level := by
  refine foldlM_preserves (motive := Given.Arises level) ?_ h htake
  intro g letter next h htake
  split at htake
  · next o hfind =>
    have hshort := List.find?_some hfind
    exact h.takeFlag (takes_of_short? (beq_iff_eq.1 hshort)) htake
  · cases htake

theorem takeOperand {operand : Bytes} (h : g.Arises level)
    (htake : takeOperand level g operand = .ok next) : next.Arises level := by
  unfold Command.takeOperand at htake
  split at htake
  · cases htake
  · obtain ⟨text, -, rfl⟩ := map_eq_ok htake
    exact h.operand text

end Given.Arises

/-! ## §2. Reading. -/

/-- **Whatever the arguments, each level is given options and operands one by one.** -/
theorem arises_of_scan {arguments : List Bytes} {levels : List (Level × Given)}
    (hscan : scan level g arguments = .ok levels) (h : g.Arises level) :
    ∀ l ∈ levels, l.2.Arises l.1 := by
  -- along the reading: each argument adds to the level at hand or leads to the next
  fun_induction scan level g arguments generalizing levels with
  | case1 =>
      cases hscan
      simpa using h
  | case2 level g argument rest hlook =>
      obtain ⟨given, htake, hrest⟩ := bind_eq_ok hscan
      cases hrest
      simpa using foldlM_preserves (motive := Given.Arises level)
        (fun _ _ _ h htake => h.takeOperand htake) h htake
  | case3 level g argument rest letters hlook ih =>
      obtain ⟨given, htake, hrest⟩ := bind_eq_ok hscan
      exact ih given hrest (h.takeLetters htake)
  | case4 => cases hscan
  | case5 level g argument name o hfind rest hbare hlook ih =>
      obtain ⟨given, htake, hrest⟩ := bind_eq_ok hscan
      exact ih given hrest (h.takeFlag hbare htake)
  | case6 level g argument name o hfind value rest hlook ih =>
      obtain ⟨given, htake, hrest⟩ := bind_eq_ok hscan
      exact ih given hrest (h.takeValue htake)
  | case7 => cases hscan
  | case8 level g argument name o hfind next rest value hnext htakes hlook ih =>
      obtain ⟨given, htake, hrest⟩ := bind_eq_ok hscan
      exact ih given hrest (h.takeValue htake)
  | case9 => cases hscan
  | case10 level g argument rest word hlook inner hinner ih =>
      obtain ⟨inward, hinward, hrest⟩ := bind_eq_ok hscan
      cases hrest
      intro l hl
      rcases List.mem_cons.1 hl with rfl | hl
      · exact h
      · exact ih hinward .nothing l hl
  | case11 => cases hscan
  | case12 level g argument rest word hlook hinner hhelp ih =>
      obtain ⟨given, htake, hrest⟩ := bind_eq_ok hscan
      exact ih given hrest (h.takeOperand htake)

/-! ## §3. Looking up. -/

/-- Every option has a value of the kind that it takes. -/
def Given.IsTyped (g : Given) : Prop :=
  ∀ given ∈ g.options, given.2.kind = given.1.takes

namespace Given

theorem Arises.isTyped (h : g.Arises level) : g.IsTyped := by
  induction h with
  | nothing => exact fun _ h => absurd h List.not_mem_nil
  | @option g next o value _ hkind hadd ih =>
      unfold Given.add at hadd
      split at hadd
      · cases hadd
      · cases hadd
        intro given hgiven
        rcases List.mem_append.1 hgiven with hgiven | hgiven
        · exact ih given hgiven
        · rw [List.mem_singleton.1 hgiven]
          exact hkind
  | operand _ _ ih => exact ih

theorem has_iff : g.has o = true ↔ ∃ value, (o, value) ∈ g.options := by
  simp only [has, List.any_eq_true, beq_iff_eq]
  constructor
  · rintro ⟨⟨o, value⟩, hmem, rfl⟩
    exact ⟨value, hmem⟩
  · rintro ⟨value, hmem⟩
    exact ⟨(o, value), hmem, rfl⟩

/-- The value of a path option that is found is one that was given. -/
theorem mem_of_path? {p : Path} (h : g.path? o = some p) : (o, .path p) ∈ g.options := by
  obtain ⟨⟨given, value⟩, hmem, hvalue⟩ := List.exists_of_findSome?_eq_some h
  cases value with
  | path q =>
      dsimp only at hvalue
      split at hvalue
      · next hgiven =>
        cases hvalue
        exact hgiven ▸ hmem
      · cases hvalue
  | flag => cases hvalue
  | text s => cases hvalue

/-- A path option that is not given is not found. -/
theorem path?_eq_none (h : g.has o = false) : g.path? o = none := by
  cases hfound : g.path? o with
  | none => rfl
  | some p =>
      rw [has_iff.2 ⟨_, mem_of_path? hfound⟩] at h
      cases h

theorem mem_texts_iff {s : String} : s ∈ g.texts o ↔ (o, .text s) ∈ g.options := by
  simp only [texts, List.mem_filterMap]
  constructor
  · rintro ⟨⟨given, value⟩, hmem, hvalue⟩
    cases value with
    | text t =>
        dsimp only at hvalue
        split at hvalue
        · next hgiven =>
          cases hvalue
          exact hgiven ▸ hmem
        · cases hvalue
    | flag => cases hvalue
    | path p => cases hvalue
  · intro hmem
    exact ⟨(o, .text s), hmem, if_pos rfl⟩

/-- The value of a text option that is found is one that was given. -/
theorem mem_of_text? {s : String} (h : g.text? o = some s) : (o, .text s) ∈ g.options :=
  mem_texts_iff.1 (List.mem_of_mem_head? h)

/-- A path option that is given is found. -/
theorem IsTyped.exists_path? (h : g.IsTyped) (htakes : o.takes = .path) (hhas : g.has o = true) :
    ∃ p, g.path? o = some p := by
  obtain ⟨value, hmem⟩ := has_iff.1 hhas
  have hkind : value.kind = .path := (h _ hmem).trans htakes
  cases value with
  | path p =>
      refine Option.isSome_iff_exists.1 (List.findSome?_isSome_iff.2 ⟨_, hmem, ?_⟩)
      simp
  | flag => cases hkind
  | text s => cases hkind

/-- A text option that is given is found. -/
theorem IsTyped.exists_text? (h : g.IsTyped) (htakes : o.takes = .text) (hhas : g.has o = true) :
    ∃ s, g.text? o = some s := by
  obtain ⟨value, hmem⟩ := has_iff.1 hhas
  have hkind : value.kind = .text := (h _ hmem).trans htakes
  cases value with
  | text s =>
      refine Option.isSome_iff_exists.1 (List.isSome_head?.2 ?_)
      exact List.ne_nil_of_mem (mem_texts_iff.2 hmem)
  | flag => cases hkind
  | path p => cases hkind

end Given

end Keyring.Command
