/-
  Keyring.Proofs.Document.Matching
  ────────────────────────────────
  **READERS AGAINST FUNCTIONS ON TREES.**

      Decodes reader decode       — `reader` takes white space and a value,
                                    and gives what `decode` makes of it;
                                    and it takes every value of which
                                    `decode` makes something
      DecodesInside, DecodesMember — the same between two brackets, and
                                    from behind the name of a member

  The two directions are kept together, so that one lemma for each way of
  building a reader settles both: that it takes what it should, and that
  it takes nothing else.

  The loop over members carries a state.  What it should be is told by a
  second state, of the trees read so far (`Tracks`): for a record that is
  the list of fields given, for a configuration the configuration itself.

  Main results:
    * `Decodes.map`, `Decodes.check`, `Decodes.nullable` — ways of making
      a reader from another;
    * `decodesInside_elements`, `decodesInside_members` — the loops over
      the parts of an array or object.
-/
import Keyring.Proofs.Document.Skipping

namespace Keyring.Document

open Reader

/-! ## §1. Values. -/

/-- The reader takes white space and a value that decodes, and nothing else. -/
structure Decodes (reader : Reader α) (decode : Json → Option α) : Prop where
  /-- What is taken is a value, and what is given is what it decodes to. -/
  sound : ∀ {text rest : List Char} {x : α}, reader text = .ok x rest →
    ∃ ws v body, text = ws ++ (body ++ rest) ∧ IsSpace ws ∧ Spells (.value v) body
      ∧ decode v = some x
  /-- A value that decodes is taken, whatever follows. -/
  complete : ∀ {ws body : List Char} {v : Json} {x : α}, IsSpace ws → Spells (.value v) body →
    decode v = some x → ∀ rest, reader (ws ++ (body ++ rest)) = .ok x rest

theorem Decodes.congr {reader : Reader α} {decode decode' : Json → Option α}
    (h : Decodes reader decode) (heq : ∀ v, decode v = decode' v) : Decodes reader decode' :=
  funext heq ▸ h

/-- What is made of the value read is made of the value decoded. -/
theorem Decodes.map {reader : Reader α} {decode : Json → Option α} (h : Decodes reader decode)
    (f : α → β) :
    Decodes (do return f (← reader)) fun v => (decode v).map f where
  sound := by
    intro text rest y hy
    obtain ⟨x, mid, hx, hpure⟩ := stages_of_bind hy
    cases hpure
    obtain ⟨ws, v, body, rfl, hws, hspells, hv⟩ := h.sound hx
    exact ⟨ws, v, body, rfl, hws, hspells, by rw [hv]; rfl⟩
  complete := by
    intro ws body v y hws hspells hv rest
    obtain ⟨x, hx, rfl⟩ := Option.map_eq_some_iff.1 hv
    exact bind_eq_of_ok (h.complete hws hspells hx rest) fun x => pure (f x)

/-- A check on the value read is a check on the value decoded. -/
theorem Decodes.check {reader : Reader α} {decode : Json → Option α} (h : Decodes reader decode)
    {next : α → Reader β} {f : α → Option β}
    (hnext : ∀ x y text rest, next x text = .ok y rest ↔ f x = some y ∧ text = rest) :
    Decodes (reader >>= next) fun v => (decode v).bind f where
  sound := by
    intro text rest y hy
    obtain ⟨x, mid, hx, hy⟩ := stages_of_bind hy
    obtain ⟨hf, rfl⟩ := (hnext x y mid rest).1 hy
    obtain ⟨ws, v, body, rfl, hws, hspells, hv⟩ := h.sound hx
    exact ⟨ws, v, body, rfl, hws, hspells, by rw [hv]; exact hf⟩
  complete := by
    intro ws body v y hws hspells hv rest
    obtain ⟨x, hx, hf⟩ := Option.bind_eq_some_iff.1 hv
    rw [bind_eq_of_ok (h.complete hws hspells hx rest)]
    exact (hnext x y rest rest).2 ⟨hf, rfl⟩

theorem wrongType_ne_ok (expected : String) (text rest : List Char) (x : α) :
    wrongType expected text ≠ .ok x rest :=
  fun h => yields_wrongType expected (fun _ => False) text x rest h

/-- A string. -/
theorem decodes_string : Decodes string Json.text? where
  sound := by
    intro text rest s h
    obtain ⟨ws, hws, htext⟩ := space_dropSpace text
    unfold string at h
    split at h
    · next tail hdrop =>
      obtain ⟨pieces, body, rfl, hspells, hs⟩ := stringBody_iff.1 h
      refine ⟨ws, .string pieces, '"' :: (body ++ ['"']), ?_, hws, .string hspells, hs⟩
      rw [htext, hdrop]
      simp
    · exact absurd h (wrongType_ne_ok _ _ _ _)
  complete := by
    intro ws body v s hws hspells hs rest
    rw [string, hspells.dropSpace_value hws]
    cases hspells with
    | @string pieces text spelled => exact stringBody_iff.2 ⟨pieces, text, by simp, spelled, hs⟩
    | null | yes | no | number | array | object => cases hs

/-- Only `null` begins with an `n`. -/
theorem Spells.eq_null {v : Json} {tail : List Char} (h : Spells (.value v) ('n' :: tail)) :
    v = .null := by
  cases h with
  | null => rfl
  | number number =>
      obtain ⟨c, tail, heq, hc⟩ := number.begins
      cases heq
      obtain ⟨-, -, -, -, -, -, -, hn, -⟩ := solid_of_number hc
      exact absurd rfl hn

/-- `null`, beside the values of a reader that has none for it. -/
theorem Decodes.nullable {reader : Reader α} {decode : Json → Option α}
    (h : Decodes reader decode) (hnull : decode .null = none) :
    Decodes (nullable reader) (Json.orNull decode) where
  sound := by
    intro text rest o ho
    obtain ⟨ws, hws, htext⟩ := space_dropSpace text
    unfold Reader.nullable at ho
    split at ho
    · next tail hdrop =>
      obtain ⟨_, mid, hword, hpure⟩ := stages_of_bind ho
      cases hpure
      refine ⟨ws, .null, ['n', 'u', 'l', 'l'], ?_, hws, .null, rfl⟩
      rw [htext, hdrop, word_iff.1 hword]
      rfl
    · next hdrop =>
      obtain ⟨x, mid, hx, hpure⟩ := stages_of_bind ho
      cases hpure
      obtain ⟨ws', v, body, hbody, hws', hspells, hv⟩ := h.sound hx
      refine ⟨ws ++ ws', v, body, ?_, hws.append hws', hspells, ?_⟩
      · rw [List.append_assoc, ← hbody]
        exact htext
      · rw [Json.orNull_of_ne_null decode, hv]
        · rfl
        · rintro rfl
          rw [hnull] at hv
          cases hv
  complete := by
    intro ws body v o hws hspells ho rest
    rw [Reader.nullable, hspells.dropSpace_value hws]
    split
    · next tail heq =>
      -- a value that begins like `null` is `null`
      obtain ⟨c, more, rfl, -⟩ := hspells.value_begins
      cases heq
      cases hspells.eq_null
      cases hspells
      cases ho
      exact bind_eq_of_ok (word_iff.2 rfl) fun _ => pure none
    · next hn =>
      have hv : v ≠ .null := by
        rintro rfl
        cases hspells
        exact hn _ rfl
      rw [Json.orNull_of_ne_null decode hv] at ho
      obtain ⟨x, hx, rfl⟩ := Option.map_eq_some_iff.1 ho
      exact bind_eq_of_ok (h.complete .nil hspells hx rest) fun x => pure (some x)

/-! ## §2. Between two brackets. -/

/-- The reader takes what the grammar has between two brackets, and gives what the parts decode
to.  White space in front of the closer it may take or leave. -/
structure DecodesInside (bracket : Bracket) (contents : Reader α) (part : ι → Part)
    (decode : ι → Option α) : Prop where
  sound : ∀ {text rest : List Char} {x : α}, contents text = .ok x rest →
    ∃ i inner, text = inner ++ rest ∧ (∀ ws, IsSpace ws → Spells (part i) (inner ++ ws))
      ∧ decode i = some x
  complete : ∀ {i : ι} {inner : List Char} {x : α}, Spells (part i) inner → decode i = some x →
    ∀ rest, ∃ ws, IsSpace ws
      ∧ contents (inner ++ bracket.closer :: rest) = .ok x (ws ++ bracket.closer :: rest)

/-- What is enclosed is taken with its closer. -/
theorem DecodesInside.enclosed {bracket : Bracket} {contents : Reader α} {part : ι → Part}
    {decode : ι → Option α} (h : DecodesInside bracket contents part decode)
    {text rest : List Char} {x : α} :
    enclosed bracket contents text = .ok x rest ↔ ∃ i inner,
      text = inner ++ bracket.closer :: rest ∧ Spells (part i) inner ∧ decode i = some x := by
  constructor
  · intro hx
    unfold Reader.enclosed at hx
    split at hx
    · next x' mid hcontents =>
      split at hx
      · next rest' hclose =>
        cases hx
        obtain ⟨i, inner, rfl, hspells, hi⟩ := h.sound hcontents
        obtain ⟨ws, rfl, hws⟩ := attemptClose_sound hclose
        exact ⟨i, inner ++ ws, by simp, hspells ws hws, hi⟩
      · cases hx
    · cases hx
    · cases hx
  · rintro ⟨i, inner, rfl, hspells, hi⟩
    obtain ⟨ws, hws, hcontents⟩ := h.complete hspells hi rest
    simp only [Reader.enclosed, hcontents, attemptClose_complete bracket hws]

/-- A bracket that opens is followed by an array. -/
theorem DecodesInside.array_sound {contents : Reader α} {decode : List Json → Option α}
    (h : DecodesInside .square contents (.elements true) decode) {text tail rest : List Char}
    {x : α} (hopen : dropSpace text = '[' :: tail)
    (hread : Reader.enclosed .square contents tail = .ok x rest) :
    ∃ ws vs body, text = ws ++ (body ++ rest) ∧ IsSpace ws ∧ Spells (.value (.array vs)) body
      ∧ decode vs = some x := by
  obtain ⟨ws, hws, htext⟩ := space_dropSpace text
  obtain ⟨vs, inner, rfl, hspells, hx⟩ := h.enclosed.1 hread
  refine ⟨ws, vs, '[' :: (inner ++ [']']), ?_, hws, .array hspells, hx⟩
  rw [htext, hopen]
  simp [Bracket.closer]

theorem DecodesInside.array_complete {contents : Reader α} {decode : List Json → Option α}
    (h : DecodesInside .square contents (.elements true) decode) {body : List Char}
    {vs : List Json} {x : α} (hspells : Spells (.value (.array vs)) body)
    (hx : decode vs = some x) (rest : List Char) :
    ∃ tail, body ++ rest = '[' :: tail ∧ Reader.enclosed .square contents tail = .ok x rest := by
  cases hspells with
  | @array _ inner spelled =>
      exact ⟨inner ++ ']' :: rest, by simp, h.enclosed.2 ⟨vs, inner, rfl, spelled, hx⟩⟩

/-- A brace that opens is followed by an object. -/
theorem DecodesInside.object_sound {contents : Reader α}
    {decode : List (List Piece × Json) → Option α}
    (h : DecodesInside .curly contents (.members true) decode) {text tail rest : List Char}
    {x : α} (hopen : dropSpace text = '\x7b' :: tail)
    (hread : Reader.enclosed .curly contents tail = .ok x rest) :
    ∃ ws ms body, text = ws ++ (body ++ rest) ∧ IsSpace ws ∧ Spells (.value (.object ms)) body
      ∧ decode ms = some x := by
  obtain ⟨ws, hws, htext⟩ := space_dropSpace text
  obtain ⟨ms, inner, rfl, hspells, hx⟩ := h.enclosed.1 hread
  refine ⟨ws, ms, '\x7b' :: (inner ++ ['\x7d']), ?_, hws, .object hspells, hx⟩
  rw [htext, hopen]
  simp [Bracket.closer]

theorem DecodesInside.object_complete {contents : Reader α}
    {decode : List (List Piece × Json) → Option α}
    (h : DecodesInside .curly contents (.members true) decode) {body : List Char}
    {ms : List (List Piece × Json)} {x : α} (hspells : Spells (.value (.object ms)) body)
    (hx : decode ms = some x) (rest : List Char) :
    ∃ tail, body ++ rest = '\x7b' :: tail
      ∧ Reader.enclosed .curly contents tail = .ok x rest := by
  cases hspells with
  | @object _ inner spelled =>
      exact ⟨inner ++ '\x7d' :: rest, by simp, h.enclosed.2 ⟨ms, inner, rfl, spelled, hx⟩⟩

/-! ## §3. Elements. -/

theorem elementsUpTo_sound {element : Reader α} {decode : Json → Option α}
    (h : Decodes element decode) (bound : List Char) :
    ∀ {isFirst : Bool} {text rest : List Char} {xs : List α},
      elementsUpTo element bound isFirst text = .ok xs rest →
      ∃ vs inner, text = inner ++ rest
        ∧ (∀ ws, IsSpace ws → Spells (.elements isFirst vs) (inner ++ ws))
        ∧ vs.mapM decode = some xs := by
  induction bound with
  | nil =>
      intro isFirst text rest xs hxs
      cases hxs
  | cons _ bound ih =>
      intro isFirst text rest xs hxs
      obtain ⟨more, mid, hanother, hnext⟩ := stages_of_bind hxs
      clear hxs
      have hsound := another_sound hanother
      cases more with
      | false =>
          cases hnext
          obtain ⟨ws, rfl, hws⟩ := hsound
          exact ⟨[], ws, rfl, fun ws' hws' => .noElement (hws.append hws'), rfl⟩
      | true =>
          obtain ⟨sep, rfl, hsep⟩ := hsound
          obtain ⟨x, mid', helement, hnext⟩ := stages_of_bind hnext
          obtain ⟨xs', mid'', hloop, hpure⟩ := stages_of_bind hnext
          cases hpure
          obtain ⟨ws, v, body, rfl, hws, hspells, hv⟩ := h.sound helement
          obtain ⟨vs, inner, rfl, hspells', hvs⟩ := ih hloop
          refine ⟨v :: vs, sep ++ ws ++ (body ++ inner), by simp, fun ws' hws' => ?_, ?_⟩
          · rw [List.append_assoc, List.append_assoc body]
            exact .element (hsep.append hws) hspells (hspells' ws' hws')
          · simp only [List.mapM_cons, hv, hvs]
            rfl

/-- One turn of the loop takes an element that decodes, and goes on behind it. -/
theorem elementsUpTo_taken {element : Reader α} {decode : Json → Option α}
    (h : Decodes element decode) {isFirst : Bool} {v : Json} {x : α} {sep text : List Char}
    (separates : Separates isFirst sep) (head : Spells (.value v) text) (hv : decode v = some x)
    (d : Char) (bound rest : List Char) :
    elementsUpTo element (d :: bound) isFirst (sep ++ (text ++ rest))
      = (elementsUpTo element bound false >>= fun xs => pure (x :: xs)) rest := by
  obtain ⟨c, tail, rfl, hc, -, hcloser, -⟩ := head.value_begins
  rw [List.cons_append, elementsUpTo_turn element separates hc hcloser]
  exact bind_eq_of_ok (h.complete .nil head hv rest) _

theorem elementsUpTo_complete {element : Reader α} {decode : Json → Option α}
    (h : Decodes element decode) (rest : List Char) {vs : List Json} :
    ∀ (bound : List Char) {isFirst : Bool} {inner : List Char} {xs : List α},
      Spells (.elements isFirst vs) inner → vs.mapM decode = some xs →
      inner.length < bound.length →
      elementsUpTo element bound isFirst (inner ++ ']' :: rest) = .ok xs (']' :: rest) := by
  induction vs with
  | nil =>
      intro bound isFirst inner xs hspells hxs hbound
      cases hxs
      cases bound with
      | nil => cases hbound
      | cons _ bound =>
          cases hspells with
          | noElement space =>
              exact bind_eq_of_ok (another_end .square isFirst space rest) _
  | cons v vs ih =>
      intro bound isFirst inner xs hspells hxs hbound
      rw [List.mapM_cons] at hxs
      obtain ⟨x, hv, hxs⟩ := Option.bind_eq_some_iff.1 hxs
      obtain ⟨xs', hvs, hxs⟩ := Option.bind_eq_some_iff.1 hxs
      cases hxs
      cases hspells with
      | @element _ _ _ sep text more separates head tail =>
          have hlength := head.length_pos
          simp only [List.length_append] at hbound
          cases bound with
          | nil => cases hbound
          | cons _ bound =>
              have hloop := ih bound tail hvs (by
                simp only [List.length_cons] at hbound
                omega)
              rw [List.append_assoc, List.append_assoc,
                elementsUpTo_taken h separates head hv]
              exact bind_eq_of_ok hloop _

/-- **The loop over elements takes what stands between brackets, and decodes each.** -/
theorem decodesInside_elements {element : Reader α} {decode : Json → Option α}
    (h : Decodes element decode) :
    DecodesInside .square (elements element) (.elements true) (List.mapM decode) where
  sound := fun hxs => elementsUpTo_sound h _ hxs
  complete := by
    intro vs inner xs hspells hvs rest
    refine ⟨[], .nil, elementsUpTo_complete h rest _ hspells hvs ?_⟩
    simp only [List.length_append, List.length_cons]
    omega

/-! ## §4. Members. -/

/-- The reader takes a colon and a value that decodes, with the white space before each.  What
follows must not go on with a number. -/
structure DecodesMember (reader : Reader σ) (decode : Json → Option σ) : Prop where
  sound : ∀ {text rest : List Char} {s : σ}, reader text = .ok s rest →
    ∃ ws ws' v body, text = ws ++ ':' :: (ws' ++ (body ++ rest)) ∧ IsSpace ws ∧ IsSpace ws'
      ∧ Spells (.value v) body ∧ decode v = some s
  complete : ∀ {ws ws' body rest : List Char} {v : Json} {s : σ}, IsSpace ws → IsSpace ws' →
    Spells (.value v) body → decode v = some s → EndsNumber rest →
    reader (ws ++ ':' :: (ws' ++ (body ++ rest))) = .ok s rest

theorem Decodes.member {reader : Reader σ} {decode : Json → Option σ} (h : Decodes reader decode) :
    DecodesMember (do colon; reader) decode where
  sound := by
    intro text rest s hs
    obtain ⟨_, mid, hcolon, hread⟩ := stages_of_bind hs
    obtain ⟨ws, rfl, hws⟩ := colon_sound hcolon
    obtain ⟨ws', v, body, rfl, hws', hspells, hv⟩ := h.sound hread
    exact ⟨ws, ws', v, body, rfl, hws, hws', hspells, hv⟩
  complete := by
    intro ws ws' body rest v s hws hws' hspells hv _
    rw [bind_eq_of_ok (colon_complete hws _)]
    exact h.complete hws' hspells hv rest

/-- A member that is passed over changes nothing, whatever its value. -/
theorem decodesMember_ignored (s : σ) :
    DecodesMember (do colon; ignored; return s) fun _ => some s where
  sound := by
    intro text rest s' hs
    obtain ⟨_, mid, hcolon, hnext⟩ := stages_of_bind hs
    obtain ⟨_, mid', hignored, hpure⟩ := stages_of_bind hnext
    cases hpure
    obtain ⟨ws, rfl, hws⟩ := colon_sound hcolon
    obtain ⟨ws', v, body, rfl, hws', hspells⟩ := ignored_sound hignored
    exact ⟨ws, ws', v, body, rfl, hws, hws', hspells, rfl⟩
  complete := by
    intro ws ws' body rest v s' hws hws' hspells hv hrest
    cases hv
    rw [bind_eq_of_ok (colon_complete hws _), bind_eq_of_ok (ignored_complete hws' hspells hrest)]
    rfl

/-- The state of a loop over members is told by `stateOf` from another one, which goes on from
member to member by `next`. -/
structure Tracks (member : σ → String → Reader σ) (next : γ → String → Json → Option γ)
    (stateOf : γ → Option σ) : Prop where
  member : ∀ {g : γ} {s : σ} (name : String), stateOf g = some s →
    DecodesMember (member s name) fun v => (next g name v).bind stateOf
  /-- Before a state that is told there was one. -/
  before : ∀ {g g' : γ} {name : String} {v : Json} {s' : σ}, next g name v = some g' →
    stateOf g' = some s' → ∃ s, stateOf g = some s

/-- The members with their names read, one after another. -/
def follow (next : γ → String → Json → Option γ) (g : γ) (ms : List (String × Json)) : Option γ :=
  ms.foldlM (fun g m => next g m.1 m.2) g

theorem Tracks.before_follow {member : σ → String → Reader σ}
    {next : γ → String → Json → Option γ} {stateOf : γ → Option σ}
    (h : Tracks member next stateOf) {ms : List (String × Json)} :
    ∀ {g g' : γ} {s' : σ}, follow next g ms = some g' → stateOf g' = some s' →
      ∃ s, stateOf g = some s := by
  induction ms with
  | nil =>
      intro g g' s' hg hs
      cases hg
      exact ⟨s', hs⟩
  | cons m ms ih =>
      intro g g' s' hg hs
      obtain ⟨between, hbetween, hg⟩ := Option.bind_eq_some_iff.1 hg
      obtain ⟨s, hs⟩ := ih hg hs
      exact h.before hbetween hs

theorem memberName_sound {text rest : List Char} {name : String}
    (h : memberName text = .ok name rest) :
    ∃ pieces spelling, text = '"' :: (spelling ++ '"' :: rest) ∧ SpellsString pieces spelling
      ∧ text? pieces = some name := by
  unfold memberName at h
  split at h
  · obtain ⟨pieces, spelling, rfl, hspells, hname⟩ := stringBody_iff.1 h
    exact ⟨pieces, spelling, rfl, hspells, hname⟩
  · cases h

/-- The name of a member that says something is taken with its closing quote. -/
theorem stringBody_complete {pieces : List Piece} {spelling : List Char} {name : String}
    (hspells : SpellsString pieces spelling) (hname : text? pieces = some name)
    (rest : List Char) : stringBody (spelling ++ '"' :: rest) = .ok name rest :=
  stringBody_iff.2 ⟨pieces, spelling, rfl, hspells, hname⟩

theorem named?_eq_some {pieces : List Piece} {name : String} {v v' : Json} :
    named? (pieces, v) = some (name, v') ↔ text? pieces = some name ∧ v = v' := by
  simp only [named?, Option.bind_eq_bind, Option.bind_eq_some_iff]
  constructor
  · rintro ⟨name', hname, heq⟩
    cases heq
    exact ⟨hname, rfl⟩
  · rintro ⟨hname, rfl⟩
    exact ⟨name, hname, rfl⟩

section Members

variable {member : σ → String → Reader σ} {next : γ → String → Json → Option γ}
  {stateOf : γ → Option σ}

theorem membersUpTo_sound (h : Tracks member next stateOf) (bound : List Char) :
    ∀ {isFirst : Bool} {text rest : List Char} {g : γ} {s s' : σ}, stateOf g = some s →
      membersUpTo member bound isFirst s text = .ok s' rest →
      ∃ ms inner given g', text = inner ++ rest
        ∧ (∀ ws, IsSpace ws → Spells (.members isFirst ms) (inner ++ ws))
        ∧ ms.mapM named? = some given ∧ follow next g given = some g'
        ∧ stateOf g' = some s' := by
  -- on the turns of the loop: the two states go side by side
  induction bound with
  | nil =>
      intro isFirst text rest g s s' _ hread
      cases hread
  | cons _ bound ih =>
      intro isFirst text rest g s s' hs hread
      obtain ⟨more, mid, hanother, hnext⟩ := stages_of_bind hread
      clear hread
      have hsound := another_sound hanother
      cases more with
      | false =>
          cases hnext
          obtain ⟨ws, rfl, hws⟩ := hsound
          exact ⟨[], ws, [], g, rfl, fun ws' hws' => .noMember (hws.append hws'), rfl, rfl, hs⟩
      | true =>
          obtain ⟨sep, rfl, hsep⟩ := hsound
          obtain ⟨name, mid₁, hname, hnext⟩ := stages_of_bind hnext
          obtain ⟨between, mid₂, hmember, hloop⟩ := stages_of_bind hnext
          obtain ⟨pieces, spelling, rfl, hpieces, htext⟩ := memberName_sound hname
          obtain ⟨ws, ws', v, body, rfl, hws, hws', hspells, hv⟩ := (h.member name hs).sound hmember
          obtain ⟨g₁, hg₁, hs₁⟩ := Option.bind_eq_some_iff.1 hv
          obtain ⟨ms, inner, given, g', rfl, hspells', hgiven, hg', hs'⟩ := ih hs₁ hloop
          refine ⟨(pieces, v) :: ms,
            sep ++ ('"' :: (spelling ++ ('"' :: (ws ++ (':' :: (ws' ++ (body ++ inner))))))),
            (name, v) :: given, g', by simp, fun ws₀ hws₀ => ?_, ?_, ?_, hs'⟩
          · have := Spells.member hsep hpieces hws hws' hspells (hspells' ws₀ hws₀)
            simpa using this
          · have hnamed : named? (pieces, v) = some (name, v) := named?_eq_some.2 ⟨htext, rfl⟩
            simp only [List.mapM_cons, hnamed, hgiven]
            rfl
          · exact Option.bind_eq_some_iff.2 ⟨g₁, hg₁, hg'⟩

/-- One turn of the loop takes a name and a value, and goes on behind them. -/
theorem membersUpTo_taken {before after : σ} {decode : Json → Option σ} {isFirst : Bool}
    {pieces : List Piece} {name : String} {v : Json} {sep spelling ws ws' text rest : List Char}
    (h : DecodesMember (member before name) decode) (hv : decode v = some after)
    (separates : Separates isFirst sep) (name_spelled : SpellsString pieces spelling)
    (htext : text? pieces = some name) (space : IsSpace ws) (space' : IsSpace ws')
    (head : Spells (.value v) text) (hrest : EndsNumber rest) (d : Char) (bound : List Char) :
    membersUpTo member (d :: bound) isFirst before
        (sep ++ '"' :: (spelling ++ '"' :: (ws ++ ':' :: (ws' ++ (text ++ rest)))))
      = membersUpTo member bound false after rest := by
  have hmember := h.complete space space' head hv hrest
  rw [membersUpTo_turn member before separates]
  have hname := stringBody_complete name_spelled htext (ws ++ ':' :: (ws' ++ (text ++ rest)))
  exact bind_eq_of_ok ((bind_eq_of_ok hname (member before)).trans hmember) _

theorem membersUpTo_complete (h : Tracks member next stateOf) (rest : List Char)
    {ms : List (List Piece × Json)} :
    ∀ (bound : List Char) {isFirst : Bool} {inner : List Char} {given : List (String × Json)}
      {g g' : γ} {s s' : σ}, Spells (.members isFirst ms) inner → ms.mapM named? = some given →
      follow next g given = some g' → stateOf g = some s → stateOf g' = some s' →
      inner.length < bound.length →
      membersUpTo member bound isFirst s (inner ++ '\x7d' :: rest) = .ok s' ('\x7d' :: rest) := by
  induction ms with
  | nil =>
      intro bound isFirst inner given g g' s s' hspells hgiven hg hs hs' hbound
      cases hgiven
      cases hg
      cases hs.symm.trans hs'
      cases bound with
      | nil => cases hbound
      | cons _ bound =>
          cases hspells with
          | noMember space => exact bind_eq_of_ok (another_end .curly isFirst space rest) _
  | cons m ms ih =>
      intro bound isFirst inner given g g' s s' hspells hgiven hg hs hs' hbound
      rw [List.mapM_cons] at hgiven
      obtain ⟨⟨name, v⟩, hnamed, hgiven⟩ := Option.bind_eq_some_iff.1 hgiven
      obtain ⟨given', hgiven', hgiven⟩ := Option.bind_eq_some_iff.1 hgiven
      cases hgiven
      obtain ⟨between, hbetween, hfollow⟩ := Option.bind_eq_some_iff.1 hg
      obtain ⟨s₁, hs₁⟩ := h.before_follow hfollow hs'
      cases hspells with
      | @member _ pieces v' _ sep spelling ws ws' text more separates name_spelled space space'
          head tail =>
          obtain ⟨htext, rfl⟩ := named?_eq_some.1 hnamed
          simp only [List.length_append, List.length_cons] at hbound
          cases bound with
          | nil => cases hbound
          | cons _ bound =>
              have hends : EndsNumber (more ++ '\x7d' :: rest) :=
                .of_spells tail (.inr ⟨_, rfl⟩) .curly rest
              rw [member_append, membersUpTo_taken (h.member name hs)
                (Option.bind_eq_some_iff.2 ⟨between, hbetween, hs₁⟩) separates name_spelled htext
                space space' head hends]
              refine ih bound tail hgiven' hfollow hs₁ hs' ?_
              simp only [List.length_cons] at hbound
              omega

/-- **The loop over members takes what stands between braces, and ends in the state that is told
of the members.** -/
theorem decodesInside_members (h : Tracks member next stateOf) {g : γ} {s : σ}
    (hs : stateOf g = some s) :
    DecodesInside .curly (members member s) (.members true) fun ms =>
      (ms.mapM named?).bind fun given => (follow next g given).bind stateOf where
  sound := by
    intro text rest s' hread
    obtain ⟨ms, inner, given, g', htext, hspells, hgiven, hg', hs'⟩ :=
      membersUpTo_sound h _ hs hread
    refine ⟨ms, inner, htext, hspells, ?_⟩
    exact Option.bind_eq_some_iff.2 ⟨given, hgiven, Option.bind_eq_some_iff.2 ⟨g', hg', hs'⟩⟩
  complete := by
    intro ms inner s' hspells hms rest
    obtain ⟨given, hgiven, hg⟩ := Option.bind_eq_some_iff.1 hms
    obtain ⟨g', hg', hs'⟩ := Option.bind_eq_some_iff.1 hg
    refine ⟨[], .nil, membersUpTo_complete h rest _ hspells hgiven hg' hs hs' ?_⟩
    simp only [List.length_append, List.length_cons]
    omega

end Members

end Keyring.Document
