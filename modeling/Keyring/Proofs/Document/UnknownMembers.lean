/-
  Keyring.Proofs.Document.UnknownMembers
  ────────────────────────────────
  **UNKNOWN MEMBERS DO NOT MATTER.**

  An object that stands for a part of a registry may hold members of which
  nothing is known.  One more of them, wherever it is put in and whatever
  value it holds, leaves the registry that is read as it is.

      Role      — what a value in a document stands for
      Around    — the text around an object within a document, by the roles
                  of the values that enclose it
      Inserts   — the text between two braces before and after one more
                  member
      Extends   — a document before and after one more unknown member

  The text around the object is the text of the enclosing values but for
  that object; so the grammar has a value for either text, and the two
  values differ in this object alone.

  Main results:
    * `given?_insert` — no declared field changes;
    * `Around.fill` — what encloses the object decodes as it did;
    * `unknown_member_ignored` — whole documents.
-/
import Keyring.Proofs.Document.Unambiguous
import Keyring.Proofs.Document.Unfit

namespace Keyring.Document

/-! ## §1. Roles and places. -/

/-- What a value in a document stands for. -/
inductive Role where
  | registry
  /-- The list of entries. -/
  | entries
  | entry
  | keyPair
  | pluginKey

namespace Role

/-- The declared fields of an object in this role; a list has none. -/
def names : Role → List String
  | .registry => Document.registry.names
  | .entries => []
  | .entry => rawEntry.names
  | .keyPair => Document.keyPair.names
  | .pluginKey => Document.pluginKey.names

/-- The field of this name holds a value with a role of its own. -/
inductive Holds : Role → String → Role → Prop where
  | keys : Holds .registry "keys" .entries
  | pair : Holds .entry "x509KeyPair" .keyPair
  | plugin : Holds .entry "externalKey" .pluginKey

end Role

/-- The text of a value in the role `outer`, before and after a value in the role `inner` that is
the value itself or a part of it. -/
inductive Around : Role → Role → List Char → List Char → Prop where
  | here {role : Role} : Around role role [] []
  /-- In an object, as the member that gives a field. -/
  | member {outer role inner : Role} {field : String} {name : List Piece}
      {earlier later : List (List Piece × Json)}
      {front sep spelling ws ws' before after back : List Char}
      (holds : outer.Holds field role) (name_eq : text? name = some field)
      (front_spelled : Spells (.members true earlier) front)
      (separates : Separates earlier.isEmpty sep) (name_spelled : SpellsString name spelling)
      (space : IsSpace ws) (space' : IsSpace ws') (within : Around role inner before after)
      (back_spelled : Spells (.members false later) back) :
      Around outer inner
        ('\x7b' :: (front ++ (sep ++
          ('"' :: (spelling ++ ('"' :: (ws ++ (':' :: (ws' ++ before)))))))))
        (after ++ (back ++ ['\x7d']))
  /-- In an array that stands for an object, in the place of a field. -/
  | field {outer role inner : Role} {field : String} {earlier later : List Json}
      {front sep before after back : List Char} (holds : outer.Holds field role)
      (place : outer.names[earlier.length]? = some field)
      (front_spelled : Spells (.elements true earlier) front)
      (separates : Separates earlier.isEmpty sep) (within : Around role inner before after)
      (back_spelled : Spells (.elements false later) back) :
      Around outer inner ('[' :: (front ++ (sep ++ before))) (after ++ (back ++ [']']))
  /-- As one of the entries. -/
  | element {inner : Role} {earlier later : List Json} {front sep before after back : List Char}
      (front_spelled : Spells (.elements true earlier) front)
      (separates : Separates earlier.isEmpty sep) (within : Around .entry inner before after)
      (back_spelled : Spells (.elements false later) back) :
      Around .entries inner ('[' :: (front ++ (sep ++ before))) (after ++ (back ++ [']']))

/-- The text between two braces before and after a member is put in whose name is none of
these. -/
inductive Inserts (known : List String) : List Char → List Char → Prop where
  /-- In front of the other members, with a comma after it. -/
  | front {name : List Piece} {field : String} {v : Json} {m : List Piece × Json}
      {later : List (List Piece × Json)} {new inner : List Char} (name_eq : text? name = some field)
      (unknown : field ∉ known) (new_spelled : Spells (.members true [(name, v)]) new)
      (inner_spelled : Spells (.members true (m :: later)) inner) :
      Inserts known inner (new ++ ',' :: inner)
  /-- Behind members, with a comma before it; or where there are no members at all. -/
  | behind {name : List Piece} {field : String} {v : Json}
      {earlier later : List (List Piece × Json)} {front new back : List Char}
      (name_eq : text? name = some field) (unknown : field ∉ known)
      (front_spelled : Spells (.members true earlier) front)
      (new_spelled : Spells (.members earlier.isEmpty [(name, v)]) new)
      (back_spelled : Spells (.members false later) back) (order : earlier = [] → later = []) :
      Inserts known (front ++ back) (front ++ (new ++ back))

/-- The second text is that of a document with one more member than in the first, in one of the
objects that make up the registry, and with a name that is not among its declared fields. -/
inductive Extends : List Char → List Char → Prop where
  | mk {role : Role} {ws ws' before after inner inner' : List Char} (space : IsSpace ws)
      (space' : IsSpace ws') (place : Around .registry role before after)
      (inserts : Inserts role.names inner inner') :
      Extends (ws ++ ((before ++ ('\x7b' :: (inner ++ ['\x7d']) ++ after)) ++ ws'))
        (ws ++ ((before ++ ('\x7b' :: (inner' ++ ['\x7d']) ++ after)) ++ ws'))

/-! ## §2. Texts put together. -/

theorem Separates.behindSpace {isFirst : Bool} {ws sep : List Char} (hws : IsSpace ws)
    (h : Separates isFirst sep) : Separates isFirst (ws ++ sep) := by
  cases h with
  | first space => exact .first (hws.append space)
  | later space space' =>
      rw [← List.append_assoc]
      exact .later (hws.append space) space'

theorem Spells.members_behindSpace {isFirst : Bool} {ms : List (List Piece × Json)}
    {ws text : List Char} (hws : IsSpace ws) (h : Spells (.members isFirst ms) text) :
    Spells (.members isFirst ms) (ws ++ text) := by
  cases h with
  | noMember space => exact .noMember (hws.append space)
  | member separates name_spelled space space' head tail =>
      rw [← List.append_assoc]
      exact .member (separates.behindSpace hws) name_spelled space space' head tail

theorem Spells.elements_behindSpace {isFirst : Bool} {vs : List Json} {ws text : List Char}
    (hws : IsSpace ws) (h : Spells (.elements isFirst vs) text) :
    Spells (.elements isFirst vs) (ws ++ text) := by
  cases h with
  | noElement space => exact .noElement (hws.append space)
  | element separates head tail =>
      rw [← List.append_assoc]
      exact .element (separates.behindSpace hws) head tail

/-- Members go on from where those before them end. -/
theorem Spells.members_append {earlier later : List (List Piece × Json)} :
    ∀ {isFirst : Bool} {front back : List Char}, Spells (.members isFirst earlier) front →
      Spells (.members (isFirst && earlier.isEmpty) later) back →
      Spells (.members isFirst (earlier ++ later)) (front ++ back) := by
  induction earlier with
  | nil =>
      intro isFirst front back hfront hback
      rw [List.isEmpty_nil, Bool.and_true] at hback
      cases hfront with
      | noMember space => exact hback.members_behindSpace space
  | cons m earlier ih =>
      intro isFirst front back hfront hback
      rw [List.isEmpty_cons, Bool.and_false] at hback
      cases hfront with
      | member separates name_spelled space space' head tail =>
          have hmore := Spells.member separates name_spelled space space' head (ih tail hback)
          simpa using hmore

/-- Elements go on from where those before them end. -/
theorem Spells.elements_append {earlier later : List Json} :
    ∀ {isFirst : Bool} {front back : List Char}, Spells (.elements isFirst earlier) front →
      Spells (.elements (isFirst && earlier.isEmpty) later) back →
      Spells (.elements isFirst (earlier ++ later)) (front ++ back) := by
  induction earlier with
  | nil =>
      intro isFirst front back hfront hback
      rw [List.isEmpty_nil, Bool.and_true] at hback
      cases hfront with
      | noElement space => exact hback.elements_behindSpace space
  | cons v earlier ih =>
      intro isFirst front back hfront hback
      rw [List.isEmpty_cons, Bool.and_false] at hback
      cases hfront with
      | element separates head tail =>
          have hmore := Spells.element separates head (ih tail hback)
          simpa using hmore

/-- Behind a comma the first member is a later one. -/
theorem Spells.members_behindComma {m : List Piece × Json} {ms : List (List Piece × Json)}
    {text : List Char} (h : Spells (.members true (m :: ms)) text) :
    Spells (.members false (m :: ms)) (',' :: text) := by
  cases h with
  | member separates name_spelled space space' head tail =>
      cases separates with
      | first spaceBefore =>
          exact .member (.later .nil spaceBefore) name_spelled space space' head tail

/-- One more member in the text is one more in the object. -/
theorem Inserts.spells {known : List String} {inner inner' : List Char}
    (h : Inserts known inner inner') :
    ∃ earlier later name field v, Spells (.members true (earlier ++ later)) inner
      ∧ Spells (.members true (earlier ++ (name, v) :: later)) inner'
      ∧ text? name = some field ∧ field ∉ known := by
  cases h with
  | @front name field v m later new _ name_eq unknown new_spelled inner_spelled =>
      exact ⟨[], m :: later, name, field, v, inner_spelled,
        new_spelled.members_append inner_spelled.members_behindComma, name_eq, unknown⟩
  | @behind name field v earlier later front new back name_eq unknown front_spelled new_spelled
      back_spelled order =>
      refine ⟨earlier, later, name, field, v, front_spelled.members_append ?_,
        front_spelled.members_append (new_spelled.members_append ?_), name_eq, unknown⟩
      · cases earlier with
        | nil =>
            obtain rfl := order rfl
            cases back_spelled with
            | noMember space => exact .noMember space
        | cons m earlier => exact back_spelled
      · rw [List.isEmpty_cons, Bool.and_false]
        exact back_spelled

/-! ## §3. The fields given. -/

theorem mapM_around_eq_some {f : α → Option β} {earlier later : List α} {x : α} {ys : List β} :
    (earlier ++ x :: later).mapM f = some ys ↔ ∃ front y back, earlier.mapM f = some front
      ∧ f x = some y ∧ later.mapM f = some back ∧ ys = front ++ y :: back := by
  simp only [List.mapM_append, List.mapM_cons, Option.bind_eq_bind, Option.bind_eq_some_iff,
    Option.pure_def, Option.some.injEq]
  grind

/-- **A member that is not declared gives no field.** -/
theorem given?_insert {declared : List String} {name : List Piece} {field : String}
    (hname : text? name = some field) (hunknown : field ∉ declared)
    (earlier later : List (List Piece × Json)) (v : Json) :
    (Json.object (earlier ++ (name, v) :: later)).given? declared
      = (Json.object (earlier ++ later)).given? declared := by
  have hnamed : named? (name, v) = some (field, v) := named?_eq_some.2 ⟨hname, rfl⟩
  have hsame : ∀ front back : List (String × Json),
      declaredOf declared (front ++ (field, v) :: back) = declaredOf declared (front ++ back) := by
    intro front back
    simp [declaredOf, hunknown]
  simp only [Json.given?, List.mapM_append, List.mapM_cons, hnamed]
  cases earlier.mapM named? with
  | none => rfl
  | some front =>
      cases later.mapM named? with
      | none => rfl
      | some back =>
          simp only [Option.bind_eq_bind, Option.bind_some, Option.pure_def, hsame]

/-- Where the first value gives its declared fields, the second gives the same but for one. -/
def Regives (declared : List String) (field : String) (v v' whole whole' : Json) : Prop :=
  ∀ given, whole.given? declared = some given → ∃ earlier later,
    given = earlier ++ (field, v) :: later
      ∧ whole'.given? declared = some (earlier ++ (field, v') :: later)

theorem regives_object {declared : List String} {name : List Piece} {field : String}
    (hname : text? name = some field) (hdeclared : field ∈ declared)
    (earlier later : List (List Piece × Json)) (v v' : Json) :
    Regives declared field v v' (.object (earlier ++ (name, v) :: later))
      (.object (earlier ++ (name, v') :: later)) := by
  intro given hgiven
  obtain ⟨members, hmembers, hgiven⟩ := Option.bind_eq_some_iff.1 hgiven
  obtain ⟨front, m, back, hfront, hm, hback, rfl⟩ := mapM_around_eq_some.1 hmembers
  obtain rfl : (field, v) = m := Option.some.inj ((named?_eq_some.2 ⟨hname, rfl⟩).symm.trans hm)
  have hmembers' : (earlier ++ (name, v') :: later).mapM named?
      = some (front ++ (field, v') :: back) :=
    mapM_around_eq_some.2 ⟨front, _, back, hfront, named?_eq_some.2 ⟨hname, rfl⟩, hback, rfl⟩
  have hdeclaredOf : ∀ w, declaredOf declared (front ++ (field, w) :: back)
      = declaredOf declared front ++ (field, w) :: declaredOf declared back := by
    intro w
    simp [declaredOf, hdeclared]
  simp only [hdeclaredOf] at hgiven
  split at hgiven
  · next hnodup =>
    cases hgiven
    refine ⟨_, _, rfl, ?_⟩
    simp only [List.map_append, List.map_cons] at hnodup
    simp only [Json.given?, hmembers', Option.bind_eq_bind, Option.bind_some, hdeclaredOf,
      List.map_append, List.map_cons, if_pos hnodup]
  · cases hgiven

theorem regives_array {declared : List String} {field : String} {earlier : List Json}
    (hplace : declared[earlier.length]? = some field) (later : List Json) (v v' : Json) :
    Regives declared field v v' (.array (earlier ++ v :: later))
      (.array (earlier ++ v' :: later)) := by
  intro given hgiven
  -- the fields in front of the place are as many as the elements in front of it
  obtain ⟨hlength, hfield⟩ := List.getElem?_eq_some_iff.1 hplace
  have hsplit : declared = declared.take earlier.length
      ++ field :: declared.drop (earlier.length + 1) := by
    rw [← hfield, List.getElem_cons_drop, List.take_append_drop]
  have hfront : (declared.take earlier.length).length = earlier.length := by
    rw [List.length_take]
    omega
  have hzip : ∀ w, declared.zip (earlier ++ w :: later)
      = (declared.take earlier.length).zip earlier
        ++ (field, w) :: (declared.drop (earlier.length + 1)).zip later := by
    intro w
    conv_lhs => rw [hsplit]
    rw [List.zip_append hfront, List.zip_cons_cons]
  have hgiven : (if _ then some _ else none) = some given := hgiven
  split at hgiven
  · next hshort =>
    cases hgiven
    refine ⟨_, _, hzip v, ?_⟩
    have hshort' : (earlier ++ v' :: later).length ≤ declared.length := by simpa using hshort
    rw [← hzip v']
    exact if_pos hshort'
  · cases hgiven

/-! ## §4. What the values decode to. -/

/-- What one of two values decodes to, the other decodes to as well. -/
def Keeps (decode : Json → Option α) (v v' : Json) : Prop :=
  ∀ x, decode v = some x → decode v' = some x

theorem field?_replace {earlier later : Given} {field other : String} {v v' : Json}
    {decode : Json → Option α} {o : Option α} (hkeeps : other = field → Keeps decode v v')
    (h : field? (earlier ++ (field, v) :: later) other decode = some o) :
    field? (earlier ++ (field, v') :: later) other decode = some o := by
  unfold field? at h ⊢
  rw [List.lookup_append] at h ⊢
  cases hlookup : earlier.lookup other with
  | some w =>
      rw [hlookup] at h
      exact h
  | none =>
      rw [hlookup, Option.none_or] at h
      rw [Option.none_or]
      by_cases heq : other = field
      · subst heq
        rw [List.lookup_cons_self] at h ⊢
        obtain ⟨x, hx, rfl⟩ := Option.map_eq_some_iff.1 h
        exact congrArg (Option.map some) (hkeeps rfl x hx)
      · have hne : (other == field) = false := by simpa using heq
        rw [List.lookup_cons, hne] at h ⊢
        exact h

theorem required?_replace {earlier later : Given} {field other : String} {v v' : Json}
    {decode : Json → Option α} {x : α} (hkeeps : other = field → Keeps decode v v')
    (h : required? (earlier ++ (field, v) :: later) other decode = some x) :
    required? (earlier ++ (field, v') :: later) other decode = some x := by
  rw [required?_eq_bind] at h ⊢
  obtain ⟨o, ho, hx⟩ := Option.bind_eq_some_iff.1 h
  rw [field?_replace hkeeps ho]
  exact hx

/-- A value that is not `null` is taken for what it is also where it might be `null`. -/
theorem Keeps.orNull {decode : Json → Option α} {v v' : Json} (h : Keeps decode v v')
    (hv : v ≠ .null) (hnull : decode .null = none) : Keeps (Json.orNull decode) v v' := by
  intro o ho
  rw [Json.orNull_of_ne_null decode hv] at ho
  obtain ⟨x, hx, rfl⟩ := Option.map_eq_some_iff.1 ho
  have hx' := h x hx
  have hv' : v' ≠ .null := by
    rintro rfl
    rw [hnull] at hx'
    cases hx'
  rw [Json.orNull_of_ne_null decode hv', hx']
  rfl

/-- The second value stands for all that the first stands for in this role. -/
def Role.Keeps : Role → Json → Json → Prop
  | .registry => Document.Keeps registry?
  | .entries => Document.Keeps entries?
  | .entry => Document.Keeps entry?
  | .keyPair => Document.Keeps keyPair?
  | .pluginKey => Document.Keeps pluginKey?

theorem registry?_eq_some {v : Json} {r : Registry} :
    registry? v = some r ↔ ∃ given defaultName entries,
      v.given? Role.registry.names = some given
        ∧ field? given "default" (Json.orNull Json.text?) = some defaultName
        ∧ field? given "keys" entries? = some entries
        ∧ ⟨defaultName.join, entries.getD []⟩ = r := by
  have hnames : Role.registry.names = ["default", "keys"] := rfl
  unfold registry?
  simp [hnames, Option.bind_eq_some_iff]

theorem rawEntry?_eq_some {v : Json} {raw : RawEntry} :
    rawEntry? v = some raw ↔ ∃ given name pair plugin, v.given? Role.entry.names = some given
      ∧ required? given "name" Json.text? = some name
      ∧ field? given "x509KeyPair" (Json.orNull keyPair?) = some pair
      ∧ field? given "externalKey" (Json.orNull pluginKey?) = some plugin
      ∧ ⟨name, pair.join, plugin.join⟩ = raw := by
  have hnames : Role.entry.names = ["name", "x509KeyPair", "externalKey"] := rfl
  unfold rawEntry?
  simp [hnames, Option.bind_eq_some_iff]

theorem keeps_entry_of_rawEntry {v v' : Json} (h : Keeps rawEntry? v v') : Keeps entry? v v' := by
  intro x hx
  obtain ⟨raw, hraw, hx⟩ := Option.bind_eq_some_iff.1 hx
  unfold entry?
  rw [h raw hraw]
  exact hx

/-- An entry stays what it is if both its materials do. -/
theorem keeps_entry_of_materials {field : String} {v v' whole whole' : Json}
    (hregives : Regives Role.entry.names field v v' whole whole') (hname : "name" ≠ field)
    (hpair : "x509KeyPair" = field → Keeps (Json.orNull keyPair?) v v')
    (hplugin : "externalKey" = field → Keeps (Json.orNull pluginKey?) v v') :
    Keeps entry? whole whole' := by
  refine keeps_entry_of_rawEntry fun raw hraw => ?_
  obtain ⟨given, name, pair, plugin, hgiven, h₁, h₂, h₃, rfl⟩ := rawEntry?_eq_some.1 hraw
  obtain ⟨earlier, later, rfl, hgiven'⟩ := hregives given hgiven
  exact rawEntry?_eq_some.2 ⟨_, name, pair, plugin, hgiven',
    required?_replace (fun h => absurd h hname) h₁, field?_replace hpair h₂,
    field?_replace hplugin h₃, rfl⟩

/-- Another value of a field that stands for as much leaves the record as it is. -/
theorem Role.Holds.keeps {outer role : Role} {field : String} {v v' whole whole' : Json}
    (h : outer.Holds field role) (hregives : Regives outer.names field v v' whole whole')
    (hv : v ≠ .null) (hkeeps : role.Keeps v v') : outer.Keeps whole whole' := by
  cases h with
  | keys =>
      intro r hr
      obtain ⟨given, defaultName, entries, hgiven, h₁, h₂, rfl⟩ := registry?_eq_some.1 hr
      obtain ⟨earlier, later, rfl, hgiven'⟩ := hregives given hgiven
      exact registry?_eq_some.2 ⟨_, defaultName, entries, hgiven',
        field?_replace (fun h => absurd h (by decide)) h₁, field?_replace (fun _ => hkeeps) h₂, rfl⟩
  | pair =>
      exact keeps_entry_of_materials hregives (by decide)
        (fun _ => Document.Keeps.orNull hkeeps hv rfl) fun h => absurd h (by decide)
  | plugin =>
      exact keeps_entry_of_materials hregives (by decide) (fun h => absurd h (by decide))
        fun _ => Document.Keeps.orNull hkeeps hv rfl

theorem keeps_entries {v v' : Json} (h : Keeps entry? v v') (earlier later : List Json) :
    Keeps entries? (.array (earlier ++ v :: later)) (.array (earlier ++ v' :: later)) := by
  intro xs hxs
  obtain ⟨front, x, back, hfront, hx, hback, rfl⟩ := mapM_around_eq_some.1 hxs
  exact mapM_around_eq_some.2 ⟨front, x, back, hfront, h x hx, hback, rfl⟩

/-- **An object stands for what it stood for without a member that is not declared.** -/
theorem Role.keeps_insert (role : Role) {name : List Piece} {field : String}
    (hname : text? name = some field) (hunknown : field ∉ role.names)
    (earlier later : List (List Piece × Json)) (v : Json) :
    role.Keeps (.object (earlier ++ later)) (.object (earlier ++ (name, v) :: later)) := by
  have hgiven := given?_insert hname hunknown earlier later v
  cases role with
  | registry =>
      intro r hr
      rw [registry?_eq_some] at hr ⊢
      rwa [← hgiven] at hr
  | entries => exact nofun
  | entry =>
      refine keeps_entry_of_rawEntry fun raw hraw => ?_
      rw [rawEntry?_eq_some] at hraw ⊢
      rwa [← hgiven] at hraw
  | keyPair =>
      intro pair hpair
      unfold keyPair? at hpair ⊢
      rwa [show Json.given? ["keyPath", "certificatePath"] _ = _ from hgiven]
  | pluginKey =>
      intro key hkey
      unfold pluginKey? at hkey ⊢
      rwa [show Json.given? ["id", "pluginName", "pluginConfig"] _ = _ from hgiven]

/-! ## §5. Whole documents. -/

/-- An object with a member among others. -/
theorem spells_member_among {name : List Piece} {earlier later : List (List Piece × Json)}
    {front sep spelling ws ws' back : List Char}
    (front_spelled : Spells (.members true earlier) front)
    (separates : Separates earlier.isEmpty sep) (name_spelled : SpellsString name spelling)
    (space : IsSpace ws) (space' : IsSpace ws') (back_spelled : Spells (.members false later) back)
    {before after body : List Char} {v : Json} (h : Spells (.value v) (before ++ (body ++ after))) :
    Spells (.value (.object (earlier ++ (name, v) :: later)))
      ('\x7b' :: (front ++ (sep ++
          ('"' :: (spelling ++ ('"' :: (ws ++ (':' :: (ws' ++ before)))))))) ++
        (body ++ (after ++ (back ++ ['\x7d'])))) := by
  have hmember := Spells.member separates name_spelled space space' h back_spelled
  have hobject := Spells.object (front_spelled.members_append hmember)
  simpa using hobject

/-- An array with an element among others. -/
theorem spells_element_among {earlier later : List Json} {front sep back : List Char}
    (front_spelled : Spells (.elements true earlier) front)
    (separates : Separates earlier.isEmpty sep) (back_spelled : Spells (.elements false later) back)
    {before after body : List Char} {v : Json} (h : Spells (.value v) (before ++ (body ++ after))) :
    Spells (.value (.array (earlier ++ v :: later)))
      ('[' :: (front ++ (sep ++ before)) ++ (body ++ (after ++ (back ++ [']'])))) := by
  have helement := Spells.element separates h back_spelled
  have harray := Spells.array (front_spelled.elements_append helement)
  simpa using harray

theorem Role.Holds.mem_names {outer role : Role} {field : String} (h : outer.Holds field role) :
    field ∈ outer.names := by
  cases h <;> decide

/-- **What encloses an object decodes as it did, if the object does.** -/
theorem Around.fill {outer inner : Role} {before after : List Char}
    (h : Around outer inner before after) {v v' : Json} {body body' : List Char}
    (hspells : Spells (.value v) body) (hspells' : Spells (.value v') body') (hv : v ≠ .null)
    (hkeeps : inner.Keeps v v') :
    ∃ whole whole', Spells (.value whole) (before ++ (body ++ after))
      ∧ Spells (.value whole') (before ++ (body' ++ after))
      ∧ whole ≠ .null ∧ outer.Keeps whole whole' := by
  -- from the object outwards, one enclosing value after another
  induction h with
  | here => exact ⟨v, v', by simpa using hspells, by simpa using hspells', hv, hkeeps⟩
  | member holds name_eq front_spelled separates name_spelled space space' _ back_spelled ih =>
      obtain ⟨part, part', hpart, hpart', hne, hkept⟩ := ih hkeeps
      exact ⟨_, _,
        spells_member_among front_spelled separates name_spelled space space' back_spelled hpart,
        spells_member_among front_spelled separates name_spelled space space' back_spelled hpart',
        nofun, holds.keeps (regives_object name_eq holds.mem_names _ _ part part') hne hkept⟩
  | field holds place front_spelled separates _ back_spelled ih =>
      obtain ⟨part, part', hpart, hpart', hne, hkept⟩ := ih hkeeps
      exact ⟨_, _, spells_element_among front_spelled separates back_spelled hpart,
        spells_element_among front_spelled separates back_spelled hpart', nofun,
        holds.keeps (regives_array place _ part part') hne hkept⟩
  | element front_spelled separates _ back_spelled ih =>
      obtain ⟨part, part', hpart, hpart', -, hkept⟩ := ih hkeeps
      exact ⟨_, _, spells_element_among front_spelled separates back_spelled hpart,
        spells_element_among front_spelled separates back_spelled hpart', nofun,
        keeps_entries hkept _ _⟩

/-- **One more unknown member does not matter.** -/
theorem unknown_member_ignored {text text' : String} {r : Registry} (h : parse text = .ok r)
    (hextends : Extends text.toList text'.toList) : parse text' = .ok r := by
  generalize htext : text.toList = before at hextends
  generalize htext' : text'.toList = after at hextends
  cases hextends with
  | @mk role ws ws' before after inner inner' space space' place inserts =>
      obtain ⟨earlier, later, name, field, v, hinner, hinner', hname, hunknown⟩ := inserts.spells
      obtain ⟨whole, whole', hwhole, hwhole', -, hkeeps⟩ :=
        place.fill (.object hinner) (.object hinner') nofun
          (role.keeps_insert hname hunknown earlier later v)
      have hr := registry?_of_parse h htext space space' hwhole
      exact (parse_eq_ok_iff text' r).2 ⟨ws, whole', _, ws', htext', space, space', hwhole',
        hkeeps r hr⟩

/-! ## §6. A member within a plugin key. -/

/-- A document with one key, up to the id of the key. -/
def frontText : String := "\x7b\"keys\":[\x7b\"name\":\"a\",\"externalKey\":\x7b\"id\":\"i\""

/-- And from there on. -/
def backText : String := ",\"pluginName\":\"p\"\x7d\x7d]\x7d"

/-- A member of which nothing is known. -/
def memberText : String := ", \"ID\":\n[\x7b\"x\":-1.5e+3\x7d,\"\\ud800\"]"

def knownText : String := frontText ++ backText

def noteText : String := frontText ++ memberText ++ backText

def knownRegistry : Registry := ⟨none, [⟨"a", .pluginKey ⟨"i", "p", .empty⟩⟩]⟩

/-- Half of a pair within an array, behind an object with a number in it. -/
theorem spells_note : ∃ v, Spells (.value v) "[\x7b\"x\":-1.5e+3\x7d,\"\\ud800\"]".toList := by
  have hwhole : IsWhole ['1'] := .digits rfl (by decide) (by simp [AreDigits])
  have hfraction : IsFraction ['.', '5'] := .digits (by decide) (by simp [AreDigits])
  have hexponent : IsExponent ['e', '+', '3'] :=
    .digits (.inl rfl) .plus (by decide) (by simp [AreDigits])
  have hnumber : Spells (.value (.number "-1.5e+3".toList)) "-1.5e+3".toList :=
    .number (.mk (.inr rfl) hwhole hfraction hexponent)
  have hobject := Spells.object (.member (.first .nil) (spells_plain "x".toList rfl) .nil .nil
    hnumber (.noMember .nil))
  have hhalf : SpellsPiece (.unit (((13 * 16 + 8) * 16 + 0) * 16 + 0)) "\\ud800".toList :=
    .hex (.inl rfl) (.inl rfl) (.inl rfl) (.inl rfl)
  have hstring := Spells.string (.cons hhalf .nil)
  exact ⟨_, Spells.array (.element (.first .nil) hobject
    (.element (.later .nil .nil) hstring (.noElement .nil)))⟩

theorem extends_noteText : Extends knownText.toList noteText.toList := by
  have ha : Spells (.value (.string (plain "a"))) _ := .string (spells_plain "a".toList rfl)
  have hi : Spells (.value (.string (plain "i"))) _ := .string (spells_plain "i".toList rfl)
  have hp : Spells (.value (.string (plain "p"))) _ := .string (spells_plain "p".toList rfl)
  obtain ⟨v, hv⟩ := spells_note
  have hid := Spells.member (.first .nil) (spells_plain "id".toList rfl) .nil .nil hi
    (.noMember .nil)
  have hpluginName := Spells.member (.later .nil .nil) (spells_plain "pluginName".toList rfl)
    .nil .nil hp (.noMember .nil)
  have hblank : IsSpace [' '] := by decide
  have hline : IsSpace ['\n'] := by decide
  have hnote : Spells (.members false [(plain "ID", v)]) _ :=
    .member (.later .nil hblank) (spells_plain "ID".toList rfl) .nil hline hv (.noMember .nil)
  have hname := Spells.member (.first .nil) (spells_plain "name".toList rfl) .nil .nil ha
    (.noMember .nil)
  have hentry : Around .entry .pluginKey _ _ :=
    .member .plugin rfl hname (.later .nil .nil) (spells_plain "externalKey".toList rfl) .nil .nil
      .here (.noMember .nil)
  have hregistry : Around .registry .pluginKey _ _ :=
    .member .keys rfl (.noMember .nil) (.first .nil) (spells_plain "keys".toList rfl) .nil .nil
      (.element (.noElement .nil) (.first .nil) hentry (.noElement .nil)) (.noMember .nil)
  have hextends := Extends.mk .nil .nil hregistry
    (.behind rfl (by decide) hid hnote hpluginName nofun)
  simpa [knownText, noteText, frontText, memberText, backText] using hextends

/-- **With the note the document is the registry that it is without.** -/
theorem noteText_parses : parse knownText = .ok knownRegistry
    ∧ Extends knownText.toList noteText.toList ∧ parse noteText = .ok knownRegistry := by
  have hparse : parse knownText = .ok knownRegistry := by decide +kernel
  exact ⟨hparse, extends_noteText, unknown_member_ignored hparse extends_noteText⟩

end Keyring.Document
