/-
  Keyring.Proofs.Store.Loadable
  ────────────────────────────────
  **WHICH SAVED REGISTRIES CAN BE LOADED.**

  A registry is checked in two places.  `validate` looks at names and the
  default, and it alone stands before a save; whoever reads a document also
  asks of each plugin key an id and a plugin name (`Registry.IsUsable`).
  Registries that have come about by operations satisfy both.  One that is
  put together by hand may satisfy the first and not the second, and then
  its document is written and never read.

  Main results:
    * `Document.exists_parse_iff` — the registries that are read of some
      document;
    * `decode_encode_of_not_isUsable` — the documents of all others;
    * `loadable_iff` — saving and loading, compared.
-/
import Keyring.Proofs.Document.Truncation
import Keyring.Proofs.Store.Failure
import Keyring.Proofs.Store.Transparency

namespace Keyring

open FileSystem

variable {s : Store} {r : Registry} {fs after : FileSystem}

/-! ## §1. Documents. -/

/-- **The registries that are read of some document are those with usable material.** -/
theorem Document.exists_parse_iff (r : Registry) :
    (∃ text, Document.parse text = .ok r) ↔ r.IsUsable := by
  constructor
  · rintro ⟨text, h⟩
    exact isUsable_of_parse h
  · intro h
    exact ⟨_, parse_print_append h "\n" rfl⟩

/-- The document of any other registry is refused by the reader, before any rule is checked. -/
theorem decode_encode_of_not_isUsable (s : Store) (h : ¬ r.IsUsable) :
    ∃ e, Document.parse (Document.print r ++ "\n") = .error e
      ∧ s.decode (Store.encode r) = .error (.malformedDocument s.path e) := by
  obtain ⟨e, hparse⟩ := Document.parse_ne_ok_iff.1 fun _ hread =>
    h (Document.isUsable_of_parse_print hread)
  refine ⟨e, hparse, ?_⟩
  simp only [Store.decode, Store.encode, Bytes.toString?_ofString, hparse]

/-! ## §2. Saving, and then loading. -/

/-- **Which saved registries can be loaded.**  Of those that `validate` accepts, the ones with
usable material are read of some document, and no others.  What has been saved is loaded, as it
was, just if its material is usable and the path is clear; the reader refuses unusable material,
and where the path is not clear nothing is read at all. -/
theorem loadable_iff (r : Registry) :
    ((∃ text, Document.parse text = .ok r ∧ r.validate = .ok ())
        ↔ r.validate = .ok () ∧ r.IsUsable)
      ∧ ∀ (s : Store) (fs after : FileSystem), runOn (s.save r) fs = (.ok (), after) →
          ((∃ r', (runOn s.load after).1 = .ok r') ↔ r.IsUsable ∧ s.IsClear fs)
          ∧ (r.IsUsable → s.IsClear fs → (runOn s.load after).1 = .ok r)
          ∧ (¬ r.IsUsable → s.IsClear fs →
              ∃ e, Document.parse (Document.print r ++ "\n") = .error e
                ∧ (runOn s.load after).1 = .error (.malformedDocument s.path e))
          ∧ (¬ s.IsClear fs → (runOn s.load after).1 = .error (.io .notFolder)) := by
  refine ⟨?_, fun s fs after hsave => ?_⟩
  · rw [← Document.exists_parse_iff r]
    constructor
    · rintro ⟨text, hparse, hvalid⟩
      exact ⟨hvalid, text, hparse⟩
    · rintro ⟨hvalid, text, hparse⟩
      exact ⟨text, hparse, hvalid⟩
  · rw [load_run]
    have hkept : r.IsUsable → s.IsClear fs → s.loaded after = .ok r := by
      intro husable hclear
      obtain ⟨place, hplace⟩ := save_eq_ok hsave
      exact (loaded_after_save hclear ⟨hplace.rules, husable⟩ hsave).1
    have hrefused : ¬ r.IsUsable → s.IsClear fs →
        ∃ e, Document.parse (Document.print r ++ "\n") = .error e
          ∧ s.loaded after = .error (.malformedDocument s.path e) := by
      intro hunusable hclear
      obtain ⟨place, hplace⟩ := save_eq_ok hsave
      rw [loaded_of_entry (entry_after_save hclear hplace).2 hplace.node?_place]
      exact decode_encode_of_not_isUsable s hunusable
    have hlost : ¬ s.IsClear fs → s.loaded after = .error (.io .notFolder) :=
      fun hclear => loaded_after_blind_save hclear hsave
    refine ⟨⟨?_, fun ⟨husable, hclear⟩ => ⟨r, hkept husable hclear⟩⟩, hkept, hrefused, hlost⟩
    -- whatever is loaded has come through neither of the two refusals
    rintro ⟨r', hloaded⟩
    change s.loaded after = .ok r' at hloaded
    by_cases hclear : s.IsClear fs
    · refine ⟨Classical.byContradiction fun hunusable => ?_, hclear⟩
      obtain ⟨e, -, herror⟩ := hrefused hunusable hclear
      rw [herror] at hloaded
      cases hloaded
    · rw [hlost hclear] at hloaded
      cases hloaded

/-- A plugin key whose id is a space: no rule of a registry speaks of ids. -/
def blankIdKey : Registry where
  defaultName := none
  entries := [⟨"a", .pluginKey ⟨" ", "p", .empty⟩⟩]

theorem blankIdKey_not_isUsable : ¬ blankIdKey.IsUsable := fun h =>
  absurd (h _ List.mem_cons_self).1 (by decide)

/-- A store in the working folder. -/
def plainStore : Store := ⟨.ofString "k"⟩

theorem plainStore_isClear : plainStore.IsClear bareTree := by
  intro e he
  rw [show plainStore.landing bareTree = .ok ⟨[Bytes.ofString "k"], false⟩ by decide +kernel] at he
  cases he
  decide +kernel

/-- **A registry that is valid and saved, and never loaded again.** -/
theorem blankIdKey_not_loaded :
    blankIdKey.validate = .ok ()
      ∧ (¬ ∃ text, Document.parse text = .ok blankIdKey ∧ blankIdKey.validate = .ok ())
      ∧ (runOn (plainStore.save blankIdKey) bareTree).1 = .ok ()
      ∧ ∃ e, (runOn plainStore.load (runOn (plainStore.save blankIdKey) bareTree).2).1
        = .error (.malformedDocument plainStore.path e) := by
  have hsave : (runOn (plainStore.save blankIdKey) bareTree).1 = .ok () := by decide +kernel
  obtain ⟨hread, hsaved⟩ := loadable_iff blankIdKey
  obtain ⟨-, -, hrefused, -⟩ := hsaved plainStore bareTree _ (Prod.ext hsave rfl)
  obtain ⟨e, -, hload⟩ := hrefused blankIdKey_not_isUsable plainStore_isClear
  exact ⟨rfl, fun h => blankIdKey_not_isUsable (hread.1 h).2, hsave, e, hload⟩

end Keyring
