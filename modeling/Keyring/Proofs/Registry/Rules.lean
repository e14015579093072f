/-
  Keyring.Proofs.Registry.Rules
  ────────────────────────────────
  **WHAT A GOOD REGISTRY IS, AND THAT EVERY CHANGE KEEPS IT ONE.**

  `Registry.KeepsRules` says in plain terms what `validate` checks by a scan:
  no blank name, no name twice, and a default that some entry bears.
  `Registry.IsUsable` is what reading a document demands besides: a plugin
  key with an id and a plugin name.  A registry with both is `Sound`.

  Main results:
    * `validate_eq_ok_iff` — the scan accepts exactly what keeps the rules;
    * `Sound.push`, `Sound.choose`, `Sound.without` — a new entry under a
      new name, another default, one entry less: each leaves it sound.
-/
import Keyring.Registry.Validation
import Mathlib.Data.List.Nodup

namespace Keyring

open Text (isBlank)

/-! ## §1. The rules, said without a scan. -/

/-- The material of an entry can be found again: a plugin key has an id and a plugin name. -/
def Material.IsUsable : Material → Prop
  | .keyPair _ => True
  | .pluginKey key => isBlank key.id = false ∧ isBlank key.pluginName = false

namespace Registry

/-- The rules of a registry. -/
structure KeepsRules (r : Registry) : Prop where
  /-- No name is blank. -/
  named : ∀ name ∈ r.names, isBlank name = false
  /-- No two entries share a name. -/
  distinct : r.names.Nodup
  /-- The default is the name of an entry. -/
  chosen : ∀ name, r.defaultName = some name → name ∈ r.names

/-- Every entry has usable material. -/
def IsUsable (r : Registry) : Prop := ∀ entry ∈ r.entries, entry.material.IsUsable

/-- A registry that can be saved and read back. -/
structure Sound (r : Registry) : Prop extends KeepsRules r where
  /-- Every entry has usable material. -/
  usable : r.IsUsable

/-! ## §2. The scan decides the rules. -/

/-- The scan finds no repetition exactly where the names differ from each other and from those
already seen. -/
theorem firstRepeated?_go_eq_none_iff (names : List String) :
    ∀ seen : List String,
      firstRepeated?.go seen names = none ↔ names.Nodup ∧ ∀ name ∈ names, name ∉ seen := by
  induction names with
  | nil => intro seen; simp [firstRepeated?.go]
  | cons name names ih =>
      intro seen
      rw [firstRepeated?.go, List.nodup_cons]
      -- the names seen so far grow by the one at the front
      by_cases hseen : seen.contains name = true
      · rw [if_pos hseen]
        have hmem : name ∈ seen := by simpa using hseen
        constructor
        · intro h; cases h
        · rintro ⟨-, h⟩
          exact absurd hmem (h name List.mem_cons_self)
      · rw [if_neg hseen, ih (name :: seen)]
        have hmem : name ∉ seen := by simpa using hseen
        constructor
        · rintro ⟨hnodup, hfresh⟩
          refine ⟨⟨fun h => hfresh name h List.mem_cons_self, hnodup⟩, ?_⟩
          intro other hother
          rcases List.mem_cons.1 hother with rfl | hother
          · exact hmem
          · exact fun h => hfresh other hother (List.mem_cons_of_mem _ h)
        · rintro ⟨⟨hname, hnodup⟩, hfresh⟩
          refine ⟨hnodup, fun other hother h => ?_⟩
          rcases List.mem_cons.1 h with rfl | h
          · exact hname hother
          · exact hfresh other (List.mem_cons_of_mem _ hother) h

theorem firstRepeated?_eq_none_iff (names : List String) :
    firstRepeated? names = none ↔ names.Nodup := by
  rw [firstRepeated?, firstRepeated?_go_eq_none_iff]
  simp

/-- Where no name is blank, the rule for the default is that some entry bears its name. -/
theorem validateDefault_eq_ok_iff (r : Registry) (named : ∀ name ∈ r.names, isBlank name = false) :
    r.validateDefault = .ok () ↔ ∀ name, r.defaultName = some name → name ∈ r.names := by
  unfold validateDefault
  cases hdefault : r.defaultName with
  | none => simp
  | some name =>
      show (if isBlank name = true then _ else if r.names.contains name = true then _ else _)
        = _ ↔ _
      by_cases hmem : name ∈ r.names
      · rw [if_neg (by simp [named name hmem]), if_pos (by simpa using hmem)]
        simpa using hmem
      · rw [if_neg (c := r.names.contains name = true) (by simpa using hmem)]
        by_cases hblank : isBlank name = true
        · simp [hblank, hmem]
        · simp [hblank, hmem]

/-- **The scan accepts exactly the registries that keep the rules.** -/
theorem validate_eq_ok_iff (r : Registry) : r.validate = .ok () ↔ r.KeepsRules := by
  -- the three rules are checked one after another, and the first broken one is reported
  unfold validate
  by_cases hblank : r.names.any isBlank = true
  · rw [if_pos hblank]
    constructor
    · intro h; cases h
    · intro h
      obtain ⟨name, hmem, hname⟩ := List.any_eq_true.1 hblank
      rw [h.named name hmem] at hname
      cases hname
  · rw [if_neg hblank]
    have named : ∀ name ∈ r.names, isBlank name = false := by
      intro name hmem
      cases hname : isBlank name with
      | false => rfl
      | true => exact absurd (List.any_eq_true.2 ⟨name, hmem, hname⟩) hblank
    cases hrepeated : firstRepeated? r.names with
    | some name =>
        constructor
        · intro h; cases h
        · intro h
          rw [(firstRepeated?_eq_none_iff r.names).2 h.distinct] at hrepeated
          cases hrepeated
    | none =>
        show r.validateDefault = .ok () ↔ _
        rw [validateDefault_eq_ok_iff r named]
        exact ⟨fun h => ⟨named, (firstRepeated?_eq_none_iff _).1 hrepeated, h⟩, fun h => h.chosen⟩

theorem validated_eq_ok_iff (r r' : Registry) :
    r.validated = .ok r' ↔ r' = r ∧ r.KeepsRules := by
  rw [← validate_eq_ok_iff, validated]
  cases r.validate with
  | error violation => simp
  | ok _ => simp [eq_comm]

/-! ## §3. Looking up among distinct names. -/

theorem find?_isSome_iff (r : Registry) (name : String) :
    (r.find? name).isSome ↔ name ∈ r.names := by
  simp [find?, names]

theorem lookUp_eq_ok (r : Registry) {name : String} (h : name ∈ r.names) :
    ∃ entry ∈ r.entries, entry.name = name ∧ r.lookUp name = .ok entry := by
  obtain ⟨entry, hfind⟩ := Option.isSome_iff_exists.1 ((r.find?_isSome_iff name).2 h)
  refine ⟨entry, List.mem_of_find?_eq_some hfind, ?_, ?_⟩
  · simpa using List.find?_some hfind
  · rw [lookUp, hfind]

/-- The default, where there is one, is the name of exactly one entry. -/
theorem KeepsRules.existsUnique_default {r : Registry} (h : r.KeepsRules) {name : String}
    (hname : r.defaultName = some name) : ∃! entry, entry ∈ r.entries ∧ entry.name = name := by
  obtain ⟨entry, hmem, heq⟩ := List.mem_map.1 (h.chosen name hname)
  refine ⟨entry, ⟨hmem, heq⟩, ?_⟩
  rintro other ⟨hother, hoeq⟩
  exact List.inj_on_of_nodup_map h.distinct hother hmem (hoeq.trans heq.symm)

/-- The entry that is found without a name is the one whose name is the default. -/
theorem KeepsRules.resolve_none_eq_ok_iff {r : Registry} (h : r.KeepsRules) (entry : Entry) :
    r.resolve none = .ok entry ↔ entry ∈ r.entries ∧ r.isDefault entry.name = true := by
  unfold resolve getDefault isDefault
  cases hdefault : r.defaultName with
  | none => simp
  | some name =>
      obtain ⟨found, hmem, rfl, hlook⟩ := r.lookUp_eq_ok (h.chosen name hdefault)
      show r.lookUp found.name = _ ↔ _
      rw [hlook, Except.ok.injEq]
      constructor
      · rintro rfl
        exact ⟨hmem, beq_self_eq_true _⟩
      · rintro ⟨hentry, hname⟩
        have hname : found.name = entry.name := by simpa using hname
        exact List.inj_on_of_nodup_map h.distinct hmem hentry hname

/-- If none is found without a name, none is set. -/
theorem KeepsRules.resolve_none_eq_error {r : Registry} (h : r.KeepsRules) {cause : KeyError}
    (hfails : r.resolve none = .error cause) : cause = .noDefaultSet ∧ r.defaultName = none := by
  unfold resolve getDefault at hfails
  cases hdefault : r.defaultName with
  | none =>
      rw [hdefault] at hfails
      cases hfails
      exact ⟨rfl, rfl⟩
  | some name =>
      obtain ⟨found, -, -, hlook⟩ := r.lookUp_eq_ok (h.chosen name hdefault)
      rw [hdefault] at hfails
      cases hlook.symm.trans hfails

/-- A default that is set is found. -/
theorem KeepsRules.getDefault_ne_keyNotFound {r : Registry} (h : r.KeepsRules) (name : String) :
    r.getDefault ≠ .error (.keyNotFound name) := by
  unfold getDefault
  cases hdefault : r.defaultName with
  | none => simp
  | some other =>
      obtain ⟨entry, -, -, hlook⟩ := r.lookUp_eq_ok (h.chosen other hdefault)
      show r.lookUp other ≠ _
      rw [hlook]
      simp

/-! ## §4. Every change leaves a sound registry. -/

theorem sound_empty : empty.Sound where
  named := by simp [names, empty]
  distinct := by simp [names, empty]
  chosen := by simp [empty]
  usable := by simp [IsUsable, empty]

@[simp] theorem names_push (r : Registry) (entry : Entry) (makeDefault : Bool) :
    (r.push entry makeDefault).names = r.names ++ [entry.name] := by
  simp [names, push]

theorem Sound.push {r : Registry} (h : r.Sound) {entry : Entry}
    (named : isBlank entry.name = false) (fresh : entry.name ∉ r.names)
    (usable : entry.material.IsUsable) (makeDefault : Bool) :
    (r.push entry makeDefault).Sound where
  named := by
    intro name hname
    rw [names_push, List.mem_append, List.mem_singleton] at hname
    rcases hname with hname | rfl
    · exact h.named name hname
    · exact named
  distinct := by
    rw [names_push, List.nodup_append]
    refine ⟨h.distinct, List.nodup_singleton _, ?_⟩
    intro name hname other hother heq
    rw [List.mem_singleton] at hother
    exact fresh (hother ▸ heq ▸ hname)
  chosen := by
    intro name hname
    rw [names_push, List.mem_append, List.mem_singleton]
    -- either the new entry becomes the default, or the old default stays
    by_cases hd : (makeDefault || r.entries.isEmpty) = true
    · right
      have : some entry.name = some name := by simpa [Registry.push, hd] using hname
      exact (Option.some.inj this).symm
    · left
      exact h.chosen name (by simpa [Registry.push, hd] using hname)
  usable := by
    intro e he
    rcases List.mem_append.1 (show e ∈ r.entries ++ [entry] from he) with he | he
    · exact h.usable e he
    · rw [List.mem_singleton] at he
      exact he ▸ usable

theorem Sound.choose {r : Registry} (h : r.Sound) {name : String} (hname : name ∈ r.names) :
    ({ r with defaultName := some name } : Registry).Sound where
  named := h.named
  distinct := h.distinct
  chosen := by
    intro other hother
    rw [← Option.some.inj (show some name = some other from hother)]
    exact hname
  usable := h.usable

theorem names_without_sublist (r : Registry) (name : String) :
    (r.without name).names.Sublist r.names :=
  (List.eraseP_sublist (l := r.entries)).map Entry.name

/-- Among distinct names the one taken out is the only one that goes. -/
theorem mem_names_without {r : Registry} {name other : String} (hne : other ≠ name)
    (hother : other ∈ r.names) : other ∈ (r.without name).names := by
  obtain ⟨entry, hmem, rfl⟩ := List.mem_map.1 hother
  refine List.mem_map.2 ⟨entry, ?_, rfl⟩
  exact (List.mem_eraseP_of_neg (by simpa using hne)).2 hmem

theorem Sound.without {r : Registry} (h : r.Sound) (name : String) : (r.without name).Sound where
  named := fun other hother => h.named other ((r.names_without_sublist name).subset hother)
  distinct := h.distinct.sublist (r.names_without_sublist name)
  chosen := by
    intro other hother
    by_cases hd : r.isDefault name = true
    · simp [Registry.without, hd] at hother
    · have hold : r.defaultName = some other := by simpa [Registry.without, hd] using hother
      have hne : other ≠ name := by
        rintro rfl
        exact hd (by simp [isDefault, hold])
      exact mem_names_without hne (h.chosen other hold)
  usable := fun entry hentry => h.usable entry (List.eraseP_subset hentry)

end Registry

end Keyring
