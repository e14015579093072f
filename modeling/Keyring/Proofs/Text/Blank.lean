/-
  Keyring.Proofs.Text.Blank
  ────────────────────────────────
  **BLANK IS WHAT TRIMMING LEAVES NOTHING OF.**

  A text is looked at in two ways: all of it at once (`isBlank`), and from
  its two ends (`trim`).  Both come to the same question, whether there is
  a character in it that is no white space.  What trimming leaves of other
  texts is the part that stands between the white space at the two ends,
  and of what is trimmed it leaves all.

  Main results:
    * `isBlank_eq_false_iff` — the question itself;
    * `trim_eq_empty_iff` — trimming answers it as well;
    * `trimChars_eq_iff` — what trimming leaves;
    * `trim_trim` — trimming twice is trimming once.
-/
import Keyring.Text.Blank
import Mathlib.Data.List.TakeWhile

namespace Keyring.Text

/-! ## §1. Blank texts. -/

/-- A text is not blank just if some character of it is no white space. -/
theorem isBlank_eq_false_iff (s : String) :
    isBlank s = false ↔ ∃ c ∈ s.toList, isWhiteSpace c = false := by
  simp only [isBlank, List.all_eq_false, Bool.not_eq_true]

theorem trimFront_eq_nil_iff (cs : List Char) :
    trimFront cs = [] ↔ ∀ c ∈ cs, isWhiteSpace c = true :=
  List.dropWhile_eq_nil_iff

theorem trimChars_eq_nil_iff (cs : List Char) :
    trimChars cs = [] ↔ ∀ c ∈ cs, isWhiteSpace c = true := by
  rw [trimChars, List.reverse_eq_nil_iff, trimFront_eq_nil_iff]
  constructor
  · intro hback
    refine (trimFront_eq_nil_iff cs).1 ?_
    -- what the front leaves begins with a character that the back cannot drop
    have hfirst := List.head?_dropWhile_not isWhiteSpace cs
    cases hfront : trimFront cs with
    | nil => rfl
    | cons c rest =>
        rw [show cs.dropWhile isWhiteSpace = c :: rest from hfront] at hfirst
        have hc : isWhiteSpace c = true := hback c (by simp [hfront])
        rw [show isWhiteSpace c = false from hfirst] at hc
        cases hc
  · intro hall
    rw [(trimFront_eq_nil_iff cs).2 hall]
    simp

/-- **Trimming leaves nothing exactly of a blank text.** -/
theorem trim_eq_empty_iff (s : String) : trim s = "" ↔ isBlank s = true := by
  rw [trim, isBlank, String.ofList_eq_empty_iff, trimChars_eq_nil_iff, List.all_eq_true]

/-! ## §2. What trimming leaves. -/

/-- There is no white space at either end. -/
structure IsTrimmed (cs : List Char) : Prop where
  first : ∀ c, cs.head? = some c → isWhiteSpace c = false
  last : ∀ c, cs.getLast? = some c → isWhiteSpace c = false

theorem IsTrimmed.reverse {cs : List Char} (h : IsTrimmed cs) : IsTrimmed cs.reverse where
  first := fun c hc => h.last c (by rwa [List.head?_reverse] at hc)
  last := fun c hc => h.first c (by rwa [List.getLast?_reverse] at hc)

/-- The front goes up to the first character that is no white space. -/
theorem trimFront_append {front cs : List Char} (hfront : ∀ c ∈ front, isWhiteSpace c = true)
    (hcs : ∀ c, cs.head? = some c → isWhiteSpace c = false) : trimFront (front ++ cs) = cs := by
  rw [trimFront, List.dropWhile_append_of_pos hfront]
  cases cs with
  | nil => rfl
  | cons c cs => rw [List.dropWhile_cons, if_neg (by simp [hcs c rfl])]

/-- What is dropped at the front is white space, and what is left does not begin with any. -/
theorem trimFront_spec (cs : List Char) :
    ∃ front, cs = front ++ trimFront cs ∧ (∀ c ∈ front, isWhiteSpace c = true)
      ∧ ∀ c, (trimFront cs).head? = some c → isWhiteSpace c = false := by
  refine ⟨cs.takeWhile isWhiteSpace, List.takeWhile_append_dropWhile.symm,
    fun c hc => List.mem_takeWhile_imp hc, fun c hc => ?_⟩
  have hfirst := List.head?_dropWhile_not isWhiteSpace cs
  rwa [show (cs.dropWhile isWhiteSpace).head? = some c from hc] at hfirst

theorem trimChars_of_split {front ts back : List Char} (hts : IsTrimmed ts)
    (hfront : ∀ c ∈ front, isWhiteSpace c = true) (hback : ∀ c ∈ back, isWhiteSpace c = true) :
    trimChars (front ++ (ts ++ back)) = ts := by
  cases ts with
  | nil =>
      rw [trimChars_eq_nil_iff]
      intro c hc
      exact (List.mem_append.1 hc).elim (hfront c) (hback c)
  | cons c rest =>
      have hleft : trimFront (front ++ (c :: rest ++ back)) = c :: rest ++ back :=
        trimFront_append hfront fun d hd => hts.first d hd
      have hright : trimFront (back.reverse ++ (c :: rest).reverse) = (c :: rest).reverse :=
        trimFront_append (fun d hd => hback d (List.mem_reverse.1 hd)) hts.reverse.first
      rw [trimChars, hleft, List.reverse_append, hright, List.reverse_reverse]

/-- **Trimming leaves what stands between the white space at the two ends.** -/
theorem trimChars_eq_iff (cs ts : List Char) :
    trimChars cs = ts ↔ IsTrimmed ts ∧ ∃ front back, cs = front ++ (ts ++ back)
      ∧ (∀ c ∈ front, isWhiteSpace c = true) ∧ ∀ c ∈ back, isWhiteSpace c = true := by
  constructor
  · rintro rfl
    obtain ⟨front, hcs, hfront, hfirst⟩ := trimFront_spec cs
    obtain ⟨back, hback, hwhite, hlast⟩ := trimFront_spec (trimFront cs).reverse
    -- the back is dropped from the reversed text, and so reads from behind
    have hsplit : trimFront cs = trimChars cs ++ back.reverse := by
      rw [trimChars, ← List.reverse_append, ← hback, List.reverse_reverse]
    refine ⟨⟨fun c hc => hfirst c ?_, fun c hc => hlast c ?_⟩, front, back.reverse, ?_, hfront,
      fun c hc => hwhite c (List.mem_reverse.1 hc)⟩
    · rw [hsplit, List.head?_append, hc]
      rfl
    · rwa [trimChars, List.getLast?_reverse] at hc
    · rw [← hsplit]
      exact hcs
  · rintro ⟨hts, front, back, rfl, hfront, hback⟩
    exact trimChars_of_split hts hfront hback

theorem isTrimmed_trimChars (cs : List Char) : IsTrimmed (trimChars cs) :=
  ((trimChars_eq_iff cs _).1 rfl).1

/-- Trimming brings in nothing new. -/
theorem mem_of_mem_trimChars {c : Char} {cs : List Char} (h : c ∈ trimChars cs) : c ∈ cs := by
  obtain ⟨-, front, back, hcs, -⟩ := (trimChars_eq_iff cs _).1 rfl
  rw [hcs]
  exact List.mem_append_right front (List.mem_append_left back h)

/-- Of what is trimmed trimming leaves all. -/
theorem IsTrimmed.trimChars_eq {cs : List Char} (h : IsTrimmed cs) : trimChars cs = cs :=
  (trimChars_eq_iff cs cs).2 ⟨h, [], [], by simp, by simp, by simp⟩

/-- **Trimming twice is trimming once.** -/
theorem trim_trim (s : String) : trim (trim s) = trim s := by
  rw [trim, trim, String.toList_ofList, (isTrimmed_trimChars s.toList).trimChars_eq]

end Keyring.Text
