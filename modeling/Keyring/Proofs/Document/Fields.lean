/-
  Keyring.Proofs.Document.Fields
  ────────────────────────────────
  **A RECORD IS READ FROM THE FIELDS IT IS GIVEN.**

  While a record is read, its draft is told by the fields given so far,
  whatever order they came in and whatever stood between them
  (`Record.Follows`).  A member that names none of them is passed over; a
  field that is given twice has no draft.  So both forms of a record, the
  object and the array, come down to the list `Json.given?`, and what is
  left to say of one record is what a single field adds to its draft.

  Main results:
    * `follow_take` — the members of an object, one by one or at once;
    * `Record.Follows.decodes_read` — a record is what its fields make of it.
-/
import Keyring.Proofs.Document.Matching

namespace Keyring.Document

open Reader

/-! ## §1. Fields, one by one. -/

/-- The fields given, after one more member: another name changes nothing, and a field that is
given already cannot be given again. -/
def take (declared : List String) (given : Given) (name : String) (v : Json) : Option Given :=
  if declared.contains name then
    if name ∈ given.map (·.1) then none else some (given ++ [(name, v)])
  else some given

/-- **Members taken one by one give what the object gives as a whole.** -/
theorem follow_take (declared : List String) (ms : List (String × Json)) :
    ∀ given : Given, (given.map (·.1)).Nodup →
      follow (take declared) given ms
        = if ((given ++ declaredOf declared ms).map (·.1)).Nodup then
            some (given ++ declaredOf declared ms)
          else none := by
  induction ms with
  | nil =>
      intro given hgiven
      rw [declaredOf, List.filter_nil, List.append_nil, if_pos hgiven]
      rfl
  | cons m ms ih =>
      intro given hgiven
      obtain ⟨name, v⟩ := m
      show (take declared given name v).bind (fun given => follow (take declared) given ms) = _
      unfold take
      by_cases hdeclared : declared.contains name = true
      · have hfilter : declaredOf declared ((name, v) :: ms)
            = (name, v) :: declaredOf declared ms := List.filter_cons_of_pos hdeclared
        rw [if_pos hdeclared, hfilter]
        by_cases hname : name ∈ given.map (·.1)
        -- a field that comes again spoils the whole list
        · rw [if_pos hname, if_neg]
          · rfl
          · rw [List.map_append, List.nodup_append]
            rintro ⟨-, -, hdisjoint⟩
            exact hdisjoint name hname name (by simp) rfl
        · rw [if_neg hname]
          have hnodup : ((given ++ [(name, v)]).map (·.1)).Nodup := by
            rw [List.map_append, List.nodup_append]
            refine ⟨hgiven, by simp, fun a ha b hb hab => hname ?_⟩
            rw [List.map_singleton, List.mem_singleton] at hb
            rwa [hab.trans hb] at ha
          have := ih _ hnodup
          rwa [List.append_assoc, List.singleton_append] at this
      · have hfilter : declaredOf declared ((name, v) :: ms) = declaredOf declared ms :=
          List.filter_cons_of_neg hdeclared
        rw [if_neg hdeclared, hfilter]
        exact ih given hgiven

theorem given?_object (declared : List String) (ms : List (List Piece × Json)) :
    (Json.object ms).given? declared = (ms.mapM named?).bind (follow (take declared) []) := by
  show (ms.mapM named?).bind _ = _
  congr
  funext members
  exact (follow_take declared members [] List.nodup_nil).symm

/-! ## §2. The value of a field. -/

theorem lookup_eq_none_iff {given : Given} {name : String} :
    given.lookup name = none ↔ name ∉ given.map (·.1) := by
  rw [List.lookup_eq_none_iff]
  simp only [List.mem_map, not_exists, not_and, bne_iff_ne, ne_eq]
  grind

/-- A field that was not given is given by a member of its name. -/
theorem field?_concat_self {given : Given} {name : String} (h : name ∉ given.map (·.1)) (v : Json)
    (decode : Json → Option α) :
    field? (given ++ [(name, v)]) name decode = (decode v).map some := by
  have hlookup : (given ++ [(name, v)]).lookup name = some v := by
    rw [List.lookup_append, lookup_eq_none_iff.2 h, Option.none_or, List.lookup_cons_self]
  rw [field?, hlookup]

/-- Members of other names leave a field as it is. -/
theorem field?_concat_of_ne (given : Given) {name other : String} (h : name ≠ other) (v : Json)
    (decode : Json → Option α) :
    field? (given ++ [(other, v)]) name decode = field? given name decode := by
  have hlookup : (given ++ [(other, v)]).lookup name = given.lookup name := by
    have hother : [(other, v)].lookup name = none := by
      rw [lookup_eq_none_iff]
      simpa using h
    rw [List.lookup_append, hother, Option.or_none]
  rw [field?, field?, hlookup]

/-- What is given later does not make an earlier field fail. -/
theorem field?_of_append {given more : Given} {name : String} {decode : Json → Option α}
    {o : Option α} (h : field? (given ++ more) name decode = some o) :
    ∃ o', field? given name decode = some o' := by
  unfold field? at h ⊢
  cases hlookup : given.lookup name with
  | none => exact ⟨none, rfl⟩
  | some v =>
      rw [List.lookup_append, hlookup] at h
      exact ⟨o, h⟩

/-- A field is given if there is a member of its name. -/
theorem isSome_field? {given : Given} {name : String} {decode : Json → Option α} {o : Option α}
    (h : field? given name decode = some o) : o.isSome = true ↔ name ∈ given.map (·.1) := by
  unfold field? at h
  cases hlookup : given.lookup name with
  | none =>
      rw [hlookup] at h
      cases h
      exact ⟨fun h => (by cases h), fun h => absurd h (lookup_eq_none_iff.1 hlookup)⟩
  | some v =>
      rw [hlookup] at h
      obtain ⟨x, hx, rfl⟩ := Option.map_eq_some_iff.1 h
      have hname : ¬ name ∉ given.map (·.1) := by
        intro hnot
        rw [lookup_eq_none_iff.2 hnot] at hlookup
        cases hlookup
      exact ⟨fun _ => Classical.not_not.1 hname, fun _ => rfl⟩

/-- A field that must be given is one that may be given, and is. -/
theorem required?_eq_bind (given : Given) (name : String) (decode : Json → Option α) :
    required? given name decode = (field? given name decode).bind id := by
  unfold required? field?
  cases given.lookup name with
  | none => rfl
  | some v => cases h : decode v <;> simp [h]

/-! ## §3. Records. -/

namespace Record

/-- The draft of a record is told by the fields given so far. -/
structure Follows (r : Record σ α) (draft? : Given → Option σ) : Prop where
  start : draft? [] = some r.draft
  distinct : (r.fields.map (·.name)).Nodup
  /-- The draft remembers which fields have been given. -/
  isGiven : ∀ {given : Given} {s : σ}, draft? given = some s → ∀ field ∈ r.fields,
    (field.isGiven s = true ↔ field.name ∈ given.map (·.1))
  /-- A field adds its own value. -/
  read : ∀ {given : Given} {s : σ}, draft? given = some s → ∀ field ∈ r.fields,
    field.name ∉ given.map (·.1) →
    Decodes (field.read s) fun v => draft? (given ++ [(field.name, v)])
  /-- There is no draft after one that fails. -/
  before : ∀ {given more : Given} {s' : σ}, draft? (given ++ more) = some s' →
    ∃ s, draft? given = some s

variable {r : Record σ α} {draft? : Given → Option σ}

/-- The names of the fields, in declared order. -/
def names (r : Record σ α) : List String := r.fields.map (·.name)

/-- The fields make up the state of the loop over members. -/
theorem Follows.tracks (h : r.Follows draft?) : Tracks r.member (take r.names) draft? where
  member := by
    intro given s name hs
    unfold Record.member take
    cases hfield : r.fields.find? fun field => field.name == name with
    | none =>
        have hname : r.names.contains name = false := by
          rw [List.find?_eq_none] at hfield
          simp only [names, List.contains_eq_mem, List.mem_map, decide_eq_false_iff_not]
          rintro ⟨field, hmem, rfl⟩
          exact hfield field hmem (by simp)
        simp only [hname, Bool.false_eq_true, if_false, Option.bind_some, hs]
        exact decodesMember_ignored s
    | some field =>
        have hmem := List.mem_of_find?_eq_some hfield
        obtain rfl : field.name = name := by simpa using List.find?_some hfield
        have hname : r.names.contains field.name = true := by
          simp only [names, List.contains_eq_mem, List.mem_map, decide_eq_true_eq]
          exact ⟨field, hmem, rfl⟩
        have hgiven := h.isGiven hs field hmem
        simp only [hname, if_true]
        by_cases hin : field.name ∈ given.map (·.1)
        -- given before: the reader refuses, and there are no fields to go on with
        · simp only [hgiven.2 hin, if_true, if_pos hin]
          exact ⟨fun hread => (by cases hread), fun _ _ _ hv _ => (by cases hv)⟩
        · simp only [if_neg (mt hgiven.1 hin), if_neg hin, Option.bind_some]
          exact (h.read hs field hmem hin).member
  before := by
    intro given given' name v s' hnext hs'
    unfold take at hnext
    split at hnext
    · split at hnext
      · cases hnext
      · cases hnext
        exact h.before hs'
    · cases hnext
      exact ⟨s', hs'⟩

/-- What becomes of the draft at the end. -/
def finish (r : Record σ α) (s : σ) : Option α := (r.complete s).toOption

/-- A draft is completed, or refused for a field that is missing. -/
theorem finish_iff (s : σ) (refuse : String → Mismatch) {text rest : List Char} {x : α} :
    (match r.complete s with
      | .ok value => pure value
      | .error name => reject (refuse name) : Reader α) text = .ok x rest
      ↔ r.finish s = some x ∧ text = rest := by
  unfold finish
  cases r.complete s with
  | ok value =>
      constructor
      · intro h
        cases h
        exact ⟨rfl, rfl⟩
      · rintro ⟨h, rfl⟩
        cases h
        rfl
  | error name => exact ⟨fun h => (by cases h), fun h => (by cases h.1)⟩

/-- The contents of an object are read as the fields it gives. -/
theorem Follows.decodesInside_ofMembers (h : r.Follows draft?) :
    DecodesInside .curly r.ofMembers (.members true) fun ms =>
      ((Json.object ms).given? r.names).bind fun given => (draft? given).bind r.finish where
  sound := by
    intro text rest x hread
    obtain ⟨s, mid, hmembers, hcomplete⟩ := stages_of_bind hread
    obtain ⟨hx, rfl⟩ := (finish_iff s .missingField).1 hcomplete
    obtain ⟨ms, inner, htext, hspells, hms⟩ :=
      (decodesInside_members h.tracks h.start).sound hmembers
    refine ⟨ms, inner, htext, hspells, ?_⟩
    obtain ⟨members, hnamed, hms⟩ := Option.bind_eq_some_iff.1 hms
    obtain ⟨given, hgiven, hs⟩ := Option.bind_eq_some_iff.1 hms
    simp only [given?_object, hnamed, hgiven, hs, hx, Option.bind_some]
  complete := by
    intro ms inner x hspells hms rest
    obtain ⟨given, hgiven, hx⟩ := Option.bind_eq_some_iff.1 hms
    obtain ⟨s, hs, hx⟩ := Option.bind_eq_some_iff.1 hx
    rw [given?_object] at hgiven
    obtain ⟨members, hnamed, hgiven⟩ := Option.bind_eq_some_iff.1 hgiven
    have htracked : ((ms.mapM named?).bind fun given =>
        (follow (take r.names) [] given).bind draft?) = some s := by
      simp only [hnamed, hgiven, hs, Option.bind_some]
    obtain ⟨ws, hws, hmembers⟩ := (decodesInside_members h.tracks h.start).complete hspells
      htracked rest
    refine ⟨ws, hws, ?_⟩
    rw [ofMembers, bind_eq_of_ok hmembers]
    exact (finish_iff s .missingField).2 ⟨hx, rfl⟩

/-! ### Elements in declared order -/

theorem inOrder_sound (h : r.Follows draft?) {fields : List (Field σ)} :
    ∀ (given : Given) {isFirst : Bool} {count count' : Nat} {s s' : σ} {text rest : List Char},
      (∀ field ∈ fields, field ∈ r.fields) →
      (given.map (·.1) ++ fields.map (·.name)).Nodup →
      draft? given = some s → inOrder fields isFirst count s text = .ok (count', s') rest →
      ∃ vs inner, text = inner ++ rest
        ∧ (∀ ws, IsSpace ws → Spells (.elements isFirst vs) (inner ++ ws))
        ∧ vs.length ≤ fields.length
        ∧ draft? (given ++ (fields.map (·.name)).zip vs) = some s' := by
  -- on the fields that are still to come
  induction fields with
  | nil =>
      intro given isFirst count count' s s' text rest _ _ hs hread
      cases hread
      exact ⟨[], [], rfl, fun ws hws => .noElement hws, Nat.le_refl 0, by simpa using hs⟩
  | cons field fields ih =>
      intro given isFirst count count' s s' text rest hsub hnodup hs hread
      obtain ⟨more, mid, hanother, hnext⟩ := stages_of_bind hread
      clear hread
      have hsound := another_sound hanother
      cases more with
      | false =>
          cases hnext
          obtain ⟨ws, rfl, hws⟩ := hsound
          exact ⟨[], ws, rfl, fun ws' hws' => .noElement (hws.append hws'), Nat.zero_le _,
            by simpa using hs⟩
      | true =>
          obtain ⟨sep, rfl, hsep⟩ := hsound
          obtain ⟨s₁, mid', hfield, hloop⟩ := stages_of_bind hnext
          have hmem := hsub field List.mem_cons_self
          have hnew : field.name ∉ given.map (·.1) := fun hin =>
            (List.nodup_append.1 hnodup).2.2 _ hin _ (by simp) rfl
          obtain ⟨ws, v, body, rfl, hws, hspells, hs₁⟩ := (h.read hs field hmem hnew).sound hfield
          obtain ⟨vs, inner, rfl, hspells', hlength, hs'⟩ := ih _
            (fun f hf => hsub f (List.mem_cons_of_mem _ hf)) (by simpa using hnodup) hs₁ hloop
          refine ⟨v :: vs, sep ++ ws ++ (body ++ inner), by simp, fun ws' hws' => ?_, ?_, ?_⟩
          · rw [List.append_assoc, List.append_assoc body]
            exact .element (hsep.append hws) hspells (hspells' ws' hws')
          · simpa using hlength
          · simpa using hs'

/-- One turn takes the value of a field, and goes on with the fields after it. -/
theorem inOrder_taken (h : r.Follows draft?) {given : Given} {field : Field σ}
    {fields : List (Field σ)} {isFirst : Bool} {v : Json} {s s₁ : σ} {sep text : List Char}
    (hs : draft? given = some s) (hfield : field ∈ r.fields) (hnew : field.name ∉ given.map (·.1))
    (separates : Separates isFirst sep) (head : Spells (.value v) text)
    (hs₁ : draft? (given ++ [(field.name, v)]) = some s₁) (count : Nat) (rest : List Char) :
    inOrder (field :: fields) isFirst count s (sep ++ (text ++ rest))
      = inOrder fields false (count + 1) s₁ rest := by
  have hread := (h.read hs field hfield hnew).complete .nil head hs₁ rest
  obtain ⟨c, tail, rfl, hc, -, hcloser, -⟩ := head.value_begins
  rw [List.cons_append, inOrder, bind_eq_of_ok (another_part .square separates hc hcloser _)]
  exact bind_eq_of_ok hread _

theorem inOrder_complete (h : r.Follows draft?) (rest : List Char) {fields : List (Field σ)} :
    ∀ (given : Given) (count : Nat) {isFirst : Bool} {vs : List Json} {s s' : σ}
      {inner : List Char}, (∀ field ∈ fields, field ∈ r.fields) →
      (given.map (·.1) ++ fields.map (·.name)).Nodup →
      Spells (.elements isFirst vs) inner → vs.length ≤ fields.length → draft? given = some s →
      draft? (given ++ (fields.map (·.name)).zip vs) = some s' →
      ∃ count' ws, IsSpace ws ∧ inOrder fields isFirst count s (inner ++ ']' :: rest)
        = .ok (count', s') (ws ++ ']' :: rest) := by
  induction fields with
  | nil =>
      intro given count isFirst vs s s' inner _ _ hspells hlength hs hs'
      obtain rfl : vs = [] := List.length_eq_zero_iff.1 (by simpa using hlength)
      rw [List.zip_nil_right, List.append_nil] at hs'
      cases hs.symm.trans hs'
      cases hspells with
      | noElement space => exact ⟨count, inner, space, rfl⟩
  | cons field fields ih =>
      intro given count isFirst vs s s' inner hsub hnodup hspells hlength hs hs'
      cases vs with
      | nil =>
          rw [List.zip_nil_right, List.append_nil] at hs'
          cases hs.symm.trans hs'
          cases hspells with
          | noElement space =>
              exact ⟨count, [], .nil, bind_eq_of_ok (another_end .square isFirst space rest) _⟩
      | cons v vs =>
          have hmem := hsub field List.mem_cons_self
          have hnew : field.name ∉ given.map (·.1) := fun hin =>
            (List.nodup_append.1 hnodup).2.2 _ hin _ (by simp) rfl
          have hs' : draft? (given ++ [(field.name, v)] ++ (fields.map (·.name)).zip vs)
              = some s' := by simpa using hs'
          obtain ⟨s₁, hs₁⟩ := h.before hs'
          cases hspells with
          | @element _ _ _ sep text more separates head tail =>
              rw [List.append_assoc, List.append_assoc,
                inOrder_taken h hs hmem hnew separates head hs₁]
              exact ih _ (count + 1) (fun f hf => hsub f (List.mem_cons_of_mem _ hf))
                (by simpa using hnodup) tail (by simpa using hlength) hs₁ hs'

/-- The contents of an array are read as the fields in their order. -/
theorem Follows.decodesInside_ofElements (h : r.Follows draft?) :
    DecodesInside .square r.ofElements (.elements true) fun vs =>
      ((Json.array vs).given? r.names).bind fun given => (draft? given).bind r.finish where
  sound := by
    intro text rest x hread
    obtain ⟨⟨count, s⟩, mid, hinOrder, hcomplete⟩ := stages_of_bind hread
    obtain ⟨hx, rfl⟩ := (finish_iff s fun _ =>
      .invalidLength count r.expected r.fields.length).1 hcomplete
    obtain ⟨vs, inner, htext, hspells, hlength, hs⟩ := inOrder_sound h []
      (fun _ hf => hf) (by simpa using h.distinct) h.start hinOrder
    refine ⟨vs, inner, htext, hspells, ?_⟩
    have hgiven : (Json.array vs).given? r.names = some (r.names.zip vs) :=
      if_pos (by simpa [names] using hlength)
    rw [List.nil_append] at hs
    rw [hgiven, Option.bind_some, names, hs]
    exact hx
  complete := by
    intro vs inner x hspells hvs rest
    obtain ⟨given, hgiven, hdraft⟩ := Option.bind_eq_some_iff.1 hvs
    obtain ⟨s, hs, hx⟩ := Option.bind_eq_some_iff.1 hdraft
    have hgiven : (if vs.length ≤ r.names.length then some (r.names.zip vs) else none)
        = some given := hgiven
    split at hgiven
    · next hlength =>
      cases hgiven
      obtain ⟨count, ws, hws, hinOrder⟩ := inOrder_complete h rest [] 0
        (fun _ hf => hf) (by simpa using h.distinct) hspells (by simpa [names] using hlength)
        h.start hs
      refine ⟨ws, hws, ?_⟩
      refine (bind_eq_of_ok hinOrder _).trans ?_
      exact (finish_iff s fun _ => .invalidLength count r.expected r.fields.length).2 ⟨hx, rfl⟩
    · cases hgiven

/-- **A record is read from an object or an array exactly as its fields make it.** -/
theorem Follows.decodes_read (h : r.Follows draft?) :
    Decodes r.read fun v => (v.given? r.names).bind fun given => (draft? given).bind r.finish where
  sound := by
    intro text rest x hread
    unfold Record.read at hread
    split at hread
    · next tail hdrop =>
      obtain ⟨ws, ms, body, htext, hws, hspells, hx⟩ :=
        h.decodesInside_ofMembers.object_sound hdrop hread
      exact ⟨ws, .object ms, body, htext, hws, hspells, hx⟩
    · next tail hdrop =>
      obtain ⟨ws, vs, body, htext, hws, hspells, hx⟩ :=
        h.decodesInside_ofElements.array_sound hdrop hread
      exact ⟨ws, .array vs, body, htext, hws, hspells, hx⟩
    · exact absurd hread (wrongType_ne_ok _ _ _ _)
  complete := by
    intro ws body v x hws hspells hx rest
    rw [Record.read, hspells.dropSpace_value hws]
    cases v with
    | object ms =>
        obtain ⟨tail, hopen, hread⟩ :=
          h.decodesInside_ofMembers.object_complete hspells hx rest
        rw [hopen]
        exact hread
    | array vs =>
        obtain ⟨tail, hopen, hread⟩ :=
          h.decodesInside_ofElements.array_complete hspells hx rest
        rw [hopen]
        exact hread
    | null | boolean | number | string => cases hx

end Record

end Keyring.Document
