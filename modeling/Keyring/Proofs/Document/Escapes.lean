/-
  Keyring.Proofs.Document.Escapes
  ────────────────────────────────
  **A STRING SAYS THE SAME IN EVERY SPELLING.**

  Whoever reads a string in a document reads it from behind its first mark
  by `stringBody`, and so from every spelling of it (`SpellsText`).  What is
  left to say is where strings are read, and what becomes of a text that
  goes on in no way in which a string does.

      Breaks pieces — after these parts of a string the text goes on so
      Decides       — the reader gives a value or refuses at once
      StringPlace   — the places of a document in which a string is read

  Main results:
    * `isPaired_of_chars?` — where a string says something, no half of a
      surrogate pair stands alone;
    * `Breaks.stringBody_ne_ok` — a string that breaks is not read;
    * `spelling_does_not_matter` — every place reads every spelling up to
      its closing mark, and refuses whatever else is there.
-/
import Keyring.Proofs.Document.Unambiguous

namespace Keyring.Document

open Reader

/-! ## §1. Strings that break. -/

/-- After these parts of a string the text goes on in a way that no string does: with a control
character, an escape that is none, or half of a surrogate pair without the other. -/
inductive Breaks (pieces : List Piece) : List Char → Prop where
  | control {c : Char} {more : List Char} (h : c.toNat < 0x20) : Breaks pieces (c :: more)
  | unknown {letter : Char} {more : List Char} (notDigits : letter ≠ 'u')
      (notShort : ∀ c, ¬ ShortEscape letter c) : Breaks pieces ('\\' :: letter :: more)
  | unfit {more : List Char} (notHex : ∀ n digits back, more = digits ++ back →
      ¬ SpellsPiece (.unit n) ('\\' :: 'u' :: digits)) : Breaks pieces ('\\' :: 'u' :: more)
  /-- No second half comes after a first. -/
  | firstAlone {n : Nat} {escape more : List Char} (half : isFirstHalf n = true)
      (spelled : SpellsPiece (.unit n) escape)
      (alone : ∀ m escape' back, more = escape' ++ back → SpellsPiece (.unit m) escape' →
        isSecondHalf m = false) : Breaks pieces (escape ++ more)
  /-- No first half stands before a second. -/
  | secondAlone {n : Nat} {escape more : List Char} (half : isSecondHalf n = true)
      (spelled : SpellsPiece (.unit n) escape)
      (alone : ∀ before m, pieces = before ++ [.unit m] → isFirstHalf m = false) :
      Breaks pieces (escape ++ more)

/-- A part of a string does not begin with the closing mark. -/
theorem SpellsPiece.begins {piece : Piece} {text : List Char} (h : SpellsPiece piece text) :
    ∃ c tail, text = c :: tail ∧ c ≠ '"' ∧ 0x20 ≤ c.toNat := by
  cases h with
  | raw control quote => exact ⟨_, _, rfl, quote, control⟩
  | short | hex => exact ⟨_, _, rfl, by decide, by decide⟩

/-- A string begins with the parts that its text begins with. -/
theorem SpellsString.split {pieces pieces' : List Piece} {front body more rest : List Char}
    (h : SpellsString pieces front) (h' : SpellsString pieces' body)
    (heq : front ++ more = body ++ '"' :: rest) : ∃ later back, pieces' = pieces ++ later
      ∧ SpellsString later back ∧ more = back ++ '"' :: rest := by
  induction h generalizing pieces' body with
  | nil => exact ⟨pieces', body, rfl, h', heq⟩
  | cons head tail ih =>
      rw [List.append_assoc] at heq
      cases h' with
      | nil =>
          obtain ⟨c, text, rfl, hquote, -⟩ := head.begins
          exact absurd (List.cons.inj heq).1 hquote
      | cons head' tail' =>
          rw [List.append_assoc] at heq
          obtain ⟨rfl, hrest⟩ := head.unique head' heq
          obtain ⟨later, back, rfl, hlater, hmore⟩ := ih tail' hrest
          exact ⟨later, back, rfl, hlater, hmore⟩

/-- A string ends here, or another part stands here. -/
theorem SpellsString.next {later : List Piece} {back text rest : List Char}
    (h : SpellsString later back) (htext : text = back ++ '"' :: rest) :
    text = '"' :: rest ∨ ∃ piece pieces front more, later = piece :: pieces
      ∧ SpellsPiece piece front ∧ SpellsString pieces more
      ∧ text = front ++ (more ++ '"' :: rest) := by
  cases h with
  | nil => exact .inl htext
  | cons head tail =>
      rw [List.append_assoc] at htext
      exact .inr ⟨_, _, _, _, rfl, head, tail, htext⟩

/-- The first half of a pair has a second behind it, and the second has a first before it. -/
structure IsPaired (before : List Piece) (n : Nat) (later : List Piece) : Prop where
  second : isFirstHalf n = true → ∃ m more, later = .unit m :: more ∧ isSecondHalf m = true
  first : isSecondHalf n = true → ∃ front m, before = front ++ [.unit m] ∧ isFirstHalf m = true

theorem IsPaired.cons {before later : List Piece} {n : Nat} (h : IsPaired before n later)
    (piece : Piece) : IsPaired (piece :: before) n later := by
  refine ⟨h.second, fun hn => ?_⟩
  obtain ⟨front, m, rfl, hm⟩ := h.first hn
  exact ⟨piece :: front, m, rfl, hm⟩

/-- A number that says something is that of a character, or the first half of a pair. -/
theorem chars?_unit {n : Nat} {later : List Piece} {cs : List Char}
    (h : chars? (.unit n :: later) = some cs) :
    ((isSecondHalf n = false ∧ isFirstHalf n = false) ∧ ∃ cs', chars? later = some cs')
      ∨ ∃ m more cs', later = .unit m :: more ∧ isFirstHalf n = true ∧ isSecondHalf m = true
        ∧ chars? more = some cs' := by
  rw [chars?.eq_def] at h
  by_cases hwhole : n < 0xD800 ∨ 0xE000 ≤ n
  · obtain ⟨cs', hcs', -⟩ := Option.map_eq_some_iff.1 ((if_pos hwhole).symm.trans h)
    exact .inl ⟨not_half_iff.2 hwhole, cs', hcs'⟩
  · have h := (if_neg hwhole).symm.trans h
    cases later with
    | nil => cases h
    | cons piece more =>
        cases piece with
        | char c => cases h
        | unit m =>
            by_cases hpair : n < 0xDC00 ∧ 0xDC00 ≤ m ∧ m < 0xE000
            · obtain ⟨cs', hcs', -⟩ := Option.map_eq_some_iff.1 ((if_pos hpair).symm.trans h)
              refine .inr ⟨m, more, cs', rfl, ?_, ?_, hcs'⟩
              · exact isFirstHalf_iff.2 ⟨by omega, hpair.1⟩
              · exact isSecondHalf_iff.2 hpair.2
            · cases (if_neg hpair).symm.trans h

/-- **In what a string says every half is paired.** -/
theorem isPaired_of_chars? {n : Nat} {later : List Piece} :
    ∀ (before : List Piece) {cs : List Char},
      chars? (before ++ .unit n :: later) = some cs → IsPaired before n later
  | [], cs, h => by
      rcases chars?_unit h with ⟨⟨hsecond, hfirst⟩, -⟩ | ⟨m, more, cs', rfl, hfirst, hm, -⟩
      · exact ⟨fun hn => absurd (hfirst.symm.trans hn) nofun,
          fun hn => absurd (hsecond.symm.trans hn) nofun⟩
      · exact ⟨fun _ => ⟨m, more, rfl, hm⟩,
          fun hn => absurd ((isSecondHalf_of_isFirstHalf hfirst).symm.trans hn) nofun⟩
  | .char c :: before, cs, h => by
      obtain ⟨cs', hcs', -⟩ := Option.map_eq_some_iff.1 h
      exact (isPaired_of_chars? before hcs').cons _
  | [.unit m], cs, h => by
      rcases chars?_unit h with ⟨-, cs', hcs'⟩ | ⟨m', more, cs', heq, hfirst, hsecond, -⟩
      · exact (isPaired_of_chars? [] hcs').cons _
      · -- the number in question is the second half
        cases heq
        exact ⟨fun hn => absurd ((isSecondHalf_of_isFirstHalf hn).symm.trans hsecond) nofun,
          fun _ => ⟨[], m, rfl, hfirst⟩⟩
  | .unit m :: piece :: before, cs, h => by
      rcases chars?_unit h with ⟨-, cs', hcs'⟩ | ⟨m', more, cs', heq, -, -, hcs'⟩
      · exact (isPaired_of_chars? (piece :: before) hcs').cons _
      · cases heq
        exact ((isPaired_of_chars? before hcs').cons _).cons _

/-- No string that says something goes on where it breaks. -/
theorem Breaks.ne_continuation {pieces later : List Piece} {text back rest cs : List Char}
    (h : Breaks pieces text) (hcs : chars? (pieces ++ later) = some cs)
    (hlater : SpellsString later back) : text ≠ back ++ '"' :: rest := by
  intro hmore
  have hnext := hlater.next hmore
  cases h with
  | control hc =>
      rcases hnext with hclosed | ⟨piece, _, _, _, -, hpiece, -, htext⟩
      · cases hclosed
        exact absurd hc (by decide)
      · obtain ⟨c, tail, rfl, -, hprints⟩ := hpiece.begins
        cases htext
        omega
  | unknown notDigits notShort =>
      rcases hnext with hclosed | ⟨piece, _, _, _, -, hpiece, -, htext⟩
      · cases hclosed
      · cases hpiece with
        | raw _ _ backslash => exact backslash (List.cons.inj htext).1.symm
        | short escape =>
            cases htext
            exact notShort _ escape
        | hex =>
            cases htext
            exact notDigits rfl
  | unfit notHex =>
      rcases hnext with hclosed | ⟨piece, _, _, _, -, hpiece, -, htext⟩
      · cases hclosed
      · cases hpiece with
        | raw _ _ backslash => exact backslash (List.cons.inj htext).1.symm
        | short escape =>
            cases htext
            cases escape
        | hex h₁ h₂ h₃ h₄ =>
            cases htext
            exact notHex _ [_, _, _, _] _ rfl (.hex h₁ h₂ h₃ h₄)
  | @firstAlone n escape more half spelled alone =>
      rcases hnext with hclosed | ⟨piece, pieces', _, back', rfl, hpiece, hrest, htext⟩
      · obtain ⟨c, tail, rfl, hquote, -⟩ := spelled.begins
        exact hquote (List.cons.inj hclosed).1
      · obtain ⟨rfl, hback⟩ := spelled.unique hpiece htext
        obtain ⟨m, pieces', rfl, hm⟩ := (isPaired_of_chars? pieces hcs).second half
        cases hrest with
        | cons head tail =>
            rw [List.append_assoc] at hback
            rw [alone m _ _ hback head] at hm
            cases hm
  | @secondAlone n escape more half spelled alone =>
      rcases hnext with hclosed | ⟨piece, pieces', _, back', rfl, hpiece, -, htext⟩
      · obtain ⟨c, tail, rfl, hquote, -⟩ := spelled.begins
        exact hquote (List.cons.inj hclosed).1
      · obtain ⟨rfl, -⟩ := spelled.unique hpiece htext
        obtain ⟨before, m, rfl, hm⟩ := (isPaired_of_chars? pieces hcs).first half
        rw [alone before m rfl] at hm
        cases hm

/-- **A string that breaks is not read, whatever comes after.** -/
theorem Breaks.stringBody_ne_ok {pieces : List Piece} {front text : List Char}
    (h : Breaks pieces text) (hfront : SpellsString pieces front) (s : String) (rest : List Char) :
    stringBody (front ++ text) ≠ .ok s rest := by
  intro hread
  obtain ⟨pieces', body, heq, hspells, hs⟩ := stringBody_iff.1 hread
  obtain ⟨later, back, rfl, hlater, hmore⟩ := hfront.split hspells heq
  exact h.ne_continuation (text?_eq_some.1 hs) hlater hmore

/-! ## §2. A string is read or refused. -/

/-- The reader gives a value or refuses at once, and leaves no place to be settled. -/
def Decides (reader : Reader α) : Prop :=
  ∀ text, (∃ value rest, reader text = .ok value rest)
    ∨ ∃ fault left, reader text = .fail fault left

theorem decides_pure (x : α) : Decides (pure x : Reader α) := fun text => .inl ⟨x, text, rfl⟩

theorem Decides.bind {first : Reader α} {next : α → Reader β} (hfirst : Decides first)
    (hnext : ∀ x, Decides (next x)) : Decides (first >>= next) := by
  intro text
  rw [bind_apply]
  rcases hfirst text with ⟨x, mid, hx⟩ | ⟨fault, left, hx⟩
  · rw [hx]
    exact hnext x mid
  · rw [hx]
    exact .inr ⟨fault, left, rfl⟩

theorem decides_failHere (fault : Fault) : Decides (failHere fault : Reader α) :=
  fun text => .inr ⟨fault, size text, rfl⟩

theorem decides_unit : Decides unit := by
  intro text
  unfold unit
  split
  · split
    · exact .inl ⟨_, _, rfl⟩
    · exact .inr ⟨_, _, rfl⟩
  · split
    · exact .inr ⟨_, _, rfl⟩
    · exact .inr ⟨_, _, rfl⟩

theorem decides_secondHalf (first : Nat) : Decides (secondHalf first) := by
  intro text
  unfold secondHalf
  split
  · exact .inr ⟨_, _, rfl⟩
  · exact .inr ⟨_, _, rfl⟩
  · next rest =>
    refine Decides.bind decides_unit (fun second => ?_) rest
    split
    · exact decides_pure _
    · exact decides_failHere _
  · exact .inr ⟨_, _, rfl⟩
  · exact .inr ⟨_, _, rfl⟩

theorem decides_codePoint : Decides codePoint := by
  refine decides_unit.bind fun value => ?_
  split
  · exact decides_failHere _
  · split
    · exact decides_secondHalf value
    · exact decides_pure _

theorem decides_escape : Decides escape := by
  intro text
  unfold escape
  split
  · exact .inr ⟨_, _, rfl⟩
  · next rest => exact decides_codePoint rest
  · split
    · exact .inl ⟨_, _, rfl⟩
    · exact .inr ⟨_, _, rfl⟩

theorem decides_character : Decides character := by
  intro text
  unfold character
  split
  · exact .inr ⟨_, _, rfl⟩
  · exact .inl ⟨_, _, rfl⟩
  · next rest => exact decides_escape.bind (fun c => decides_pure (some c)) rest
  · split
    · exact .inr ⟨_, _, rfl⟩
    · exact .inl ⟨_, _, rfl⟩

theorem decides_charactersUpTo (bound : List Char) : Decides (charactersUpTo bound) := by
  induction bound with
  | nil => exact decides_failHere _
  | cons _ bound ih =>
      refine decides_character.bind fun o => ?_
      cases o with
      | none => exact decides_pure []
      | some c => exact ih.bind fun cs => decides_pure (c :: cs)

/-- Behind its first mark a string is read, or the text is refused. -/
theorem decides_stringBody : Decides stringBody := fun text =>
  (decides_charactersUpTo text).bind (fun cs => decides_pure (String.ofList cs)) text

/-! ## §3. Every place for a string. -/

/-- A place in a document where a string is read: what is left in front of its first mark, the
reader, and what that makes of the string. -/
inductive StringPlace : {σ : Type} → List Char → Reader σ → (String → σ) → Prop where
  | keyPath {ws : List Char} (space : IsSpace ws) {field : Field KeyPairDraft}
      (declared : keyPair.fields.find? (·.name == "keyPath") = some field) (d : KeyPairDraft) :
      StringPlace ws (field.read d) fun s => { d with keyPath := some s }
  | certificatePath {ws : List Char} (space : IsSpace ws) {field : Field KeyPairDraft}
      (declared : keyPair.fields.find? (·.name == "certificatePath") = some field)
      (d : KeyPairDraft) :
      StringPlace ws (field.read d) fun s => { d with certificatePath := some s }
  | id {ws : List Char} (space : IsSpace ws) {field : Field PluginKeyDraft}
      (declared : pluginKey.fields.find? (·.name == "id") = some field) (d : PluginKeyDraft) :
      StringPlace ws (field.read d) fun s => { d with id := some s }
  | pluginName {ws : List Char} (space : IsSpace ws) {field : Field PluginKeyDraft}
      (declared : pluginKey.fields.find? (·.name == "pluginName") = some field)
      (d : PluginKeyDraft) :
      StringPlace ws (field.read d) fun s => { d with pluginName := some s }
  | name {ws : List Char} (space : IsSpace ws) {field : Field EntryDraft}
      (declared : rawEntry.fields.find? (·.name == "name") = some field) (d : EntryDraft) :
      StringPlace ws (field.read d) fun s => { d with name := some s }
  | defaultName {ws : List Char} (space : IsSpace ws) {field : Field RegistryDraft}
      (declared : registry.fields.find? (·.name == "default") = some field) (d : RegistryDraft) :
      StringPlace ws (field.read d) fun s => { d with defaultName := some (some s) }
  | configKey : StringPlace [] memberName fun key => key
  /-- From behind the key, with the colon. -/
  | configValue {ws ws' : List Char} (space : IsSpace ws) (space' : IsSpace ws') (config : Config)
      (key : String) : StringPlace (ws ++ ':' :: ws') (setting config key) (config.insert key)

theorem string_quoted {ws : List Char} (h : IsSpace ws) (text : List Char) :
    string (ws ++ '"' :: text) = stringBody text := by
  rw [string, dropSpace_append_cons h rfl]
  rfl

/-- What is made of a string in a field. -/
theorem string_bind_quoted {ws : List Char} (h : IsSpace ws) (put : String → σ) (text : List Char) :
    (string >>= fun s => pure (put s) : Reader σ) (ws ++ '"' :: text)
      = (stringBody >>= fun s => pure (put s) : Reader σ) text := by
  rw [bind_apply, string_quoted h, bind_apply]

/-- Where there might be a `null`, a string is read as one. -/
theorem nullable_quoted {ws : List Char} (h : IsSpace ws) (text : List Char) :
    nullable string (ws ++ '"' :: text)
      = (stringBody >>= fun s => pure (some s) : Reader (Option String)) text := by
  rw [nullable, dropSpace_append_cons h rfl]
  exact string_bind_quoted .nil some text

/-- **A place reads what stands behind the first mark as a string.** -/
theorem StringPlace.read_eq {front : List Char} {reader : Reader σ} {put : String → σ}
    (h : StringPlace front reader put) (text : List Char) :
    reader (front ++ '"' :: text) = (stringBody >>= fun s => pure (put s) : Reader σ) text := by
  cases h with
  | keyPath space declared d =>
      cases declared
      exact string_bind_quoted space _ text
  | certificatePath space declared d =>
      cases declared
      exact string_bind_quoted space _ text
  | id space declared d =>
      cases declared
      exact string_bind_quoted space _ text
  | pluginName space declared d =>
      cases declared
      exact string_bind_quoted space _ text
  | name space declared d =>
      cases declared
      exact string_bind_quoted space _ text
  | defaultName space declared d =>
      cases declared
      show (nullable string >>= fun o => pure { d with defaultName := some o } : Reader _) _ = _
      rw [bind_apply, nullable_quoted space, bind_apply, bind_apply]
      cases stringBody text <;> rfl
  | configKey =>
      show stringBody text = _
      rw [bind_apply]
      cases stringBody text <;> rfl
  | @configValue ws ws' space space' config key =>
      have hcolon : colon (ws ++ ':' :: ws' ++ '"' :: text) = .ok () (ws' ++ '"' :: text) := by
        rw [List.append_assoc, List.cons_append, colon, dropSpace_append_cons space rfl]
        rfl
      rw [setting, bind_eq_of_ok hcolon]
      exact string_bind_quoted space' _ text

/-- **What a string says does not depend on its spelling.**  In every place for a string a text is
read from each of its spellings, up to the closing mark, whatever follows, and nothing else is
read.  A string that breaks, anywhere in it, is refused. -/
theorem spelling_does_not_matter {front : List Char} {reader : Reader σ} {put : String → σ}
    (h : StringPlace front reader put) :
    (∀ (s : String) (body rest : List Char), SpellsText s.toList body →
      reader (front ++ '"' :: (body ++ '"' :: rest)) = .ok (put s) rest)
    ∧ (∀ (value : σ) (text rest : List Char), reader (front ++ '"' :: text) = .ok value rest →
      ∃ s body, text = body ++ '"' :: rest ∧ SpellsText s.toList body ∧ value = put s)
    ∧ ∀ (pieces : List Piece) (begun text : List Char), SpellsString pieces begun →
      Breaks pieces text →
      ∃ fault left, reader (front ++ '"' :: (begun ++ text)) = .fail fault left := by
  refine ⟨fun s body rest hspells => ?_, fun value text rest hread => ?_,
    fun pieces begun text hbegun hbreaks => ?_⟩
  · rw [h.read_eq]
    exact bind_eq_of_ok (stringBody_iff_spellsText.2 ⟨body, rfl, hspells⟩) _
  · rw [h.read_eq] at hread
    obtain ⟨s, mid, hs, hpure⟩ := stages_of_bind hread
    obtain ⟨rfl, rfl⟩ := pure_eq_ok hpure
    obtain ⟨body, htext, hspells⟩ := stringBody_iff_spellsText.1 hs
    exact ⟨s, body, htext, hspells, rfl⟩
  · rw [h.read_eq, bind_apply]
    rcases decides_stringBody (begun ++ text) with ⟨s, rest, hread⟩ | ⟨fault, left, hread⟩
    · exact absurd hread (hbreaks.stringBody_ne_ok hbegun s rest)
    · exact ⟨fault, left, by rw [hread]⟩

/-- A name in escapes: a letter by its number, and a smiley by its two halves. -/
def escapedName : List Char :=
  ['\\', 'u', '0', '0', 'E', '9', '\\', 'u', 'd', '8', '3', 'D', '\\', 'u', 'D', 'e', '0', '0']

/-- The first half of the smiley. -/
def smileyHalf : List Char := ['\\', 'u', 'd', '8', '3', 'd']

/-- The name of an entry is read from its escapes up to the mark, and refused with a half too many,
though the other two are a pair. -/
theorem escapedName_read : ∃ field, rawEntry.fields.find? (·.name == "name") = some field
    ∧ field.read ⟨none, none, none⟩ (' ' :: '"' :: (escapedName ++ ['"', ',']))
      = .ok ⟨some "é😀", none, none⟩ [',']
    ∧ ∃ fault left, field.read ⟨none, none, none⟩
        (' ' :: '"' :: 'a' :: (smileyHalf ++ (smileyHalf ++ ['\\', 'u', 'd', 'e', '0', '0', '"'])))
      = .fail fault left := by
  refine ⟨_, rfl, ?_⟩
  have place : StringPlace [' '] _ _ := .name (by decide) rfl ⟨none, none, none⟩
  obtain ⟨hread, -, hrefused⟩ := spelling_does_not_matter place
  constructor
  · refine hread "é😀" escapedName [','] ?_
    have hletter : SpellsPiece (.unit 'é'.toNat) ['\\', 'u', '0', '0', 'E', '9'] :=
      hexValue4?_eq_some.1 (by decide)
    have hfirst : SpellsPiece (.unit (firstHalfOf '😀')) ['\\', 'u', 'd', '8', '3', 'D'] :=
      hexValue4?_eq_some.1 (by decide)
    have hsecond : SpellsPiece (.unit (secondHalfOf '😀')) ['\\', 'u', 'D', 'e', '0', '0'] :=
      hexValue4?_eq_some.1 (by decide)
    exact .cons (.number hletter) (.cons (.pair (by decide) hfirst hsecond) .nil)
  · have hbegun : SpellsString [.char 'a'] ['a'] :=
      .cons (.raw (by decide) (by decide) (by decide)) .nil
    have hhalf : SpellsPiece (.unit 0xD83D) smileyHalf := hexValue4?_eq_some.1 (by decide)
    refine hrefused [.char 'a'] ['a'] _ hbegun (.firstAlone (by decide) hhalf ?_)
    -- what comes next is the first half again
    intro m escape back heq hescape
    obtain ⟨hm, -⟩ := hhalf.unique hescape heq
    cases hm
    decide

end Keyring.Document
