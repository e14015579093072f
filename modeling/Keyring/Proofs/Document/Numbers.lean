/-
  Keyring.Proofs.Document.Numbers
  ────────────────────────────────
  **NUMBERS ARE READ AS THE GRAMMAR HAS THEM.**

  A number is the one value that does not show its own end: `1` goes on in
  `12`, in `1.5` and in `1e5`.  So each part of it is read whole only if
  what follows does not go on with it, and the conditions are passed from
  the back to the front: what ends the number ends its exponent, an
  exponent ends a fraction, a fraction the digits before the point.

  Main results:
    * `numeral_sound` — what is read is a number;
    * `numeral_complete` — a number is read to its end.
-/
import Keyring.Proofs.Document.Grammar
import Keyring.Proofs.Document.Reading

namespace Keyring.Document

open Reader

/-! ## §1. Digits. -/

/-- No digit comes next. -/
def EndsDigits (rest : List Char) : Prop :=
  ∀ c tail, rest = c :: tail → c.isDigit = false

theorem EndsNumber.endsDigits {rest : List Char} (h : EndsNumber rest) : EndsDigits rest :=
  fun c tail heq => (h c tail heq).1

theorem EndsDigits.cons {c : Char} (h : c.isDigit = false) (rest : List Char) :
    EndsDigits (c :: rest) := by
  intro d tail heq
  cases heq
  exact h

theorem digits_sound {atEnd : Fault} {text ds rest : List Char}
    (h : digits atEnd text = .ok ds rest) : text = ds ++ rest ∧ ds ≠ [] ∧ AreDigits ds := by
  unfold digits at h
  split at h
  · cases h
  · next c tail =>
    split at h
    · next hc =>
      cases h
      refine ⟨List.takeWhile_append_dropWhile.symm, ?_, ?_⟩
      · rw [List.takeWhile_cons_of_pos hc]
        exact List.cons_ne_nil _ _
      · exact fun d hd => List.all_eq_true.1 List.all_takeWhile d hd
    · cases h

theorem digits_complete (atEnd : Fault) {ds rest : List Char} (hne : ds ≠ [])
    (hds : AreDigits ds) (hrest : EndsDigits rest) :
    digits atEnd (ds ++ rest) = .ok ds rest := by
  have htake : (ds ++ rest).takeWhile Char.isDigit = ds := by
    rw [List.takeWhile_append_of_pos hds]
    cases rest with
    | nil => exact List.append_nil ds
    | cons c tail => rw [List.takeWhile_cons_of_neg (by simp [hrest c tail rfl]), List.append_nil]
  have hdrop : (ds ++ rest).dropWhile Char.isDigit = rest := by
    rw [List.dropWhile_append_of_pos hds]
    cases rest with
    | nil => rfl
    | cons c tail => exact List.dropWhile_cons_of_neg (by simp [hrest c tail rfl])
  cases ds with
  | nil => exact absurd rfl hne
  | cons d ds =>
      rw [List.cons_append] at htake hdrop ⊢
      rw [digits, if_pos (hds d List.mem_cons_self), htake, hdrop]

theorem wholePart_sound {atEnd : Fault} {text ds rest : List Char}
    (h : wholePart atEnd text = .ok ds rest) : text = ds ++ rest ∧ IsWhole ds := by
  unfold wholePart at h
  split at h
  -- a zero in front, with or without something after it
  · split at h
    · cases h
      exact ⟨rfl, .zero⟩
    · split at h
      · cases h
      · cases h
        exact ⟨rfl, .zero⟩
  · next hzero =>
    obtain ⟨rfl, hne, hds⟩ := digits_sound h
    cases ds with
    | nil => exact absurd rfl hne
    | cons d ds =>
        refine ⟨rfl, .digits (hds d List.mem_cons_self) (fun hd => ?_)
          fun c hc => hds c (List.mem_cons_of_mem _ hc)⟩
        exact hzero (ds ++ rest) (by rw [List.cons_append, hd])

theorem wholePart_complete (atEnd : Fault) {ds rest : List Char} (h : IsWhole ds)
    (hrest : EndsDigits rest) : wholePart atEnd (ds ++ rest) = .ok ds rest := by
  cases h with
  | zero =>
      cases rest with
      | nil => rfl
      | cons c tail =>
          exact if_neg (by simp [hrest c tail rfl])
  | @digits c more first nonzero hmore =>
      rw [wholePart]
      · refine digits_complete atEnd (List.cons_ne_nil c more) ?_ hrest
        exact List.forall_mem_cons.2 ⟨first, hmore⟩
      · intro tail heq
        exact nonzero (List.cons.inj heq).1

/-! ## §2. Fraction and exponent. -/

theorem fractionPart_sound {atEnd : Fault} {text rest : List Char} {o : Option (List Char)}
    (h : fractionPart atEnd text = .ok o rest) :
    ∃ fraction, text = fraction ++ rest ∧ IsFraction fraction := by
  unfold fractionPart at h
  split at h
  · obtain ⟨ds, mid, hdigits, hpure⟩ := stages_of_bind h
    cases hpure
    obtain ⟨rfl, hne, hds⟩ := digits_sound hdigits
    exact ⟨'.' :: ds, rfl, .digits hne hds⟩
  · cases h
    exact ⟨[], rfl, .absent⟩

theorem fractionPart_complete (atEnd : Fault) {fraction rest : List Char}
    (h : IsFraction fraction) (hrest : EndsDigits rest) (hpoint : ∀ tail, rest ≠ '.' :: tail) :
    ∃ o, fractionPart atEnd (fraction ++ rest) = .ok o rest := by
  cases h with
  | absent =>
      refine ⟨none, ?_⟩
      rw [List.nil_append, fractionPart]
      exact hpoint
  | @digits ds nonempty hds =>
      exact ⟨some ds, bind_eq_of_ok (digits_complete atEnd nonempty hds hrest)
        fun ds => pure (some ds)⟩

theorem exponentSign_sound {text rest : List Char} {isNegative : Bool}
    (h : exponentSign text = .ok isNegative rest) :
    ∃ sign, text = sign ++ rest ∧ IsSign sign := by
  unfold exponentSign at h
  split at h
  · cases h
    exact ⟨['+'], rfl, .plus⟩
  · cases h
    exact ⟨['-'], rfl, .minus⟩
  · cases h
    exact ⟨[], rfl, .absent⟩

/-- A sign is read if no other sign comes after it. -/
theorem exponentSign_complete {sign ds : List Char} (h : IsSign sign) (hne : ds ≠ [])
    (hds : AreDigits ds) (rest : List Char) :
    ∃ isNegative, exponentSign (sign ++ (ds ++ rest)) = .ok isNegative (ds ++ rest) := by
  cases h with
  | plus => exact ⟨false, rfl⟩
  | minus => exact ⟨true, rfl⟩
  | absent =>
      cases ds with
      | nil => exact absurd rfl hne
      | cons d ds =>
          have hd : d.isDigit = true := hds d List.mem_cons_self
          refine ⟨false, ?_⟩
          rw [List.nil_append, List.cons_append, exponentSign]
          · intro tail heq
            rw [(List.cons.inj heq).1] at hd
            cases hd
          · intro tail heq
            rw [(List.cons.inj heq).1] at hd
            cases hd

theorem exponentBody_sound {atEnd : Fault} {text rest : List Char} {o : Option Exponent}
    (h : exponentBody atEnd text = .ok o rest) {letter : Char}
    (hletter : letter = 'e' ∨ letter = 'E') :
    ∃ exponent, letter :: text = exponent ++ rest ∧ IsExponent exponent := by
  obtain ⟨isNegative, mid, hread, hnext⟩ := stages_of_bind h
  obtain ⟨ds, mid', hread', hpure⟩ := stages_of_bind hnext
  cases hpure
  obtain ⟨sign, rfl, hsign⟩ := exponentSign_sound hread
  obtain ⟨rfl, hne, hds⟩ := digits_sound hread'
  exact ⟨letter :: (sign ++ ds), by simp, .digits hletter hsign hne hds⟩

theorem exponentPart_sound {atEnd : Fault} {text rest : List Char} {o : Option Exponent}
    (h : exponentPart atEnd text = .ok o rest) :
    ∃ exponent, text = exponent ++ rest ∧ IsExponent exponent := by
  unfold exponentPart at h
  split at h
  · exact exponentBody_sound h (.inl rfl)
  · exact exponentBody_sound h (.inr rfl)
  · cases h
    exact ⟨[], rfl, .absent⟩

theorem exponentPart_complete (atEnd : Fault) {exponent rest : List Char}
    (h : IsExponent exponent) (hrest : EndsNumber rest) :
    ∃ o, exponentPart atEnd (exponent ++ rest) = .ok o rest := by
  cases h with
  | absent =>
      refine ⟨none, ?_⟩
      rw [List.nil_append, exponentPart]
      · rintro tail rfl
        exact (hrest _ _ rfl).2.2.1 rfl
      · rintro tail rfl
        exact (hrest _ _ rfl).2.2.2 rfl
  | @digits letter sign ds letter_eq sign_ok nonempty hds =>
      obtain ⟨isNegative, hsign⟩ := exponentSign_complete sign_ok nonempty hds rest
      have hdigits := digits_complete atEnd nonempty hds hrest.endsDigits
      have hbody : exponentBody atEnd (sign ++ ds ++ rest)
          = .ok (some ⟨isNegative, ds⟩) rest := by
        rw [List.append_assoc, exponentBody, bind_eq_of_ok hsign, bind_eq_of_ok hdigits]
        rfl
      rcases letter_eq with rfl | rfl <;> exact ⟨_, hbody⟩

/-- After the digits before the point comes no digit: a point, an exponent, or what ends the
number. -/
theorem endsDigits_fraction {fraction exponent rest : List Char} (hf : IsFraction fraction)
    (he : IsExponent exponent) (hrest : EndsNumber rest) :
    EndsDigits (fraction ++ (exponent ++ rest)) ∧ EndsDigits (exponent ++ rest)
      ∧ ∀ tail, exponent ++ rest ≠ '.' :: tail := by
  have hexponent : EndsDigits (exponent ++ rest) ∧ ∀ tail, exponent ++ rest ≠ '.' :: tail := by
    cases he with
    | absent =>
        refine ⟨hrest.endsDigits, ?_⟩
        rintro tail heq
        exact (hrest _ _ heq).2.1 rfl
    | digits letter_eq _ _ _ =>
        rcases letter_eq with rfl | rfl
        · exact ⟨.cons rfl _, fun _ heq => by cases heq⟩
        · exact ⟨.cons rfl _, fun _ heq => by cases heq⟩
  refine ⟨?_, hexponent⟩
  cases hf with
  | absent => exact hexponent.1
  | digits _ _ => exact .cons rfl _

/-! ## §3. Numbers. -/

/-- **What is read as a number is one of the grammar.** -/
theorem numeral_sound {atEnd : Fault} {text rest : List Char} {n : Numeral}
    (h : numeral atEnd text = .ok n rest) : ∃ body, text = body ++ rest ∧ IsNumber body := by
  obtain ⟨isNegative, mid₁, hminus, h₁⟩ := stages_of_bind h
  obtain ⟨whole, mid₂, hread₂, h₂⟩ := stages_of_bind h₁
  obtain ⟨fo, mid₃, hread₃, h₃⟩ := stages_of_bind h₂
  obtain ⟨eo, mid₄, hread₄, hpure⟩ := stages_of_bind h₃
  cases hpure
  obtain ⟨rfl, hwhole⟩ := wholePart_sound hread₂
  obtain ⟨fraction, rfl, hfraction⟩ := fractionPart_sound hread₃
  obtain ⟨exponent, rfl, hexponent⟩ := exponentPart_sound hread₄
  have hsign : ∃ sign, text = sign ++ (whole ++ (fraction ++ (exponent ++ rest)))
      ∧ (sign = [] ∨ sign = ['-']) := by
    unfold minus at hminus
    split at hminus
    · cases hminus
      exact ⟨['-'], rfl, .inr rfl⟩
    · cases hminus
      exact ⟨[], rfl, .inl rfl⟩
  obtain ⟨sign, rfl, hsign⟩ := hsign
  exact ⟨_, by simp, .mk hsign hwhole hfraction hexponent⟩

/-- **Any number of the grammar is read, if it ends where it says.** -/
theorem numeral_complete (atEnd : Fault) {body rest : List Char} (h : IsNumber body)
    (hrest : EndsNumber rest) : ∃ n, numeral atEnd (body ++ rest) = .ok n rest := by
  obtain ⟨hminus, hwhole, hfraction, hexponent⟩ := h
  rename_i sign whole fraction exponent
  obtain ⟨hends, hends', hpoint⟩ := endsDigits_fraction hfraction hexponent hrest
  obtain ⟨fo, hf⟩ := fractionPart_complete atEnd hfraction hends' hpoint
  obtain ⟨eo, he⟩ := exponentPart_complete atEnd hexponent hrest
  have hw := wholePart_complete atEnd hwhole hends
  have hm : ∃ isNegative, minus (sign ++ (whole ++ (fraction ++ (exponent ++ rest))))
      = .ok isNegative (whole ++ (fraction ++ (exponent ++ rest))) := by
    rcases hminus with rfl | rfl
    · refine ⟨false, ?_⟩
      cases hwhole with
      | zero => rfl
      | @digits c more first _ _ =>
          rw [List.nil_append, List.cons_append, minus]
          intro tail heq
          rw [(List.cons.inj heq).1] at first
          cases first
    · exact ⟨true, rfl⟩
  obtain ⟨isNegative, hm⟩ := hm
  refine ⟨⟨isNegative, whole, fo, eo⟩, ?_⟩
  rw [List.append_assoc, List.append_assoc, List.append_assoc, numeral, bind_eq_of_ok hm,
    bind_eq_of_ok hw, bind_eq_of_ok hf, bind_eq_of_ok he]
  rfl

end Keyring.Document
