/-
  Keyring.Proofs.Store.Refusals
  ────────────────────────────────
  **REFUSED CHANGES.**

  The checks of a key pair include its two files.  Here is what these
  checks are on a file system, and with them every way in which a change
  of a registry can be refused:

      add           — the name is blank, or taken; the key's file; the
                      certificate's file
      addPlugin     — given up; a blank name, id or plugin name; a name
                      that is taken
      updateDefault, remove
                    — the name is blank, or of no entry, as for a lookup

  Main results:
    * `keyFile_eq_error_iff` — when a key file is refused, and how;
    * `add_throws` — a bad name is refused before any file is looked at;
    * `changes_refused` — all the refusals of the four operations.
-/
import Keyring.Proofs.Registry.InPlace
import Keyring.Proofs.Registry.Refusals
import Keyring.Proofs.Store.Requests

namespace Keyring

open Text (isBlank)

/-! ## §1. Key files. -/

/-- A key file is refused for its path, which must be text to be stored, and then for what the
path leads to, which must be a regular file that can be opened. -/
inductive FileSystem.RefusesKeyFile (fs : FileSystem) (p : Path) : Check where
  | notText (unstorable : p.toString? = none) :
      RefusesKeyFile fs p (.invalidConfig (.pathNotText p))
  | notOpened {cause : FileError} (storable : p.toString?.isSome = true)
      (closed : fs.inspect p = .error cause) : RefusesKeyFile fs p (.keyFileNotFound p cause)
  | notRegular {kind : FileSystem.Kind} (storable : p.toString?.isSome = true)
      (opened : fs.inspect p = .ok kind) (irregular : kind ≠ .file) :
      RefusesKeyFile fs p (.keyFileNotFound p .notRegular)

theorem keyFile_eq_error_iff (fs : FileSystem) (p : Path) (e : KeyError) :
    fs.keyFile p = .error e ↔ fs.RefusesKeyFile p e := by
  rw [keyFile_eq]
  constructor
  · intro h
    cases htext : p.toString? with
    | none =>
        rw [htext] at h
        cases h
        exact .notText htext
    | some text =>
        have hstorable : p.toString?.isSome = true := by rw [htext]; rfl
        rw [htext] at h
        cases hinspect : fs.inspect p with
        | error cause =>
            simp only [hinspect] at h
            cases h
            exact .notOpened hstorable hinspect
        | ok kind =>
            simp only [hinspect] at h
            cases kind with
            | file => cases h
            | folder => cases h; exact .notRegular hstorable hinspect (by decide)
            | other => cases h; exact .notRegular hstorable hinspect (by decide)
  · intro h
    cases h with
    | notText unstorable => simp only [unstorable]
    | notOpened storable closed =>
        obtain ⟨text, htext⟩ := Option.isSome_iff_exists.1 storable
        simp only [htext, closed]
    | notRegular storable opened irregular =>
        obtain ⟨text, htext⟩ := Option.isSome_iff_exists.1 storable
        simp only [htext, opened]

theorem check_of_keyFile (fs : FileSystem) (p : Path) :
    Check.of (fs.keyFile p) = fs.RefusesKeyFile p :=
  funext fun e => propext (keyFile_eq_error_iff fs p e)

namespace Registry

/-! ## §2. Adding a key pair. -/

/-- A bad name is refused whatever checking the files would do or come to: it is never done. -/
theorem add_throws {m : Type → Type} [Monad m] [LawfulMonad m] {r : Registry} {name : String}
    {e : KeyError} (h : FirstOf [namedCheck name, r.freshCheck name] e)
    (key certificate : ExceptT KeyError m String) (makeDefault : Bool) :
    r.add name key certificate makeDefault = throw e := by
  have hname : r.checkNewName name = .error e := (guarded_checkNewName r name e).2 h
  apply ExceptT.ext
  rw [add, hname, ExceptT.run_bind]
  show pure (Except.error e) >>= _ = _
  rw [pure_bind]
  rfl

theorem add_eq_error_iff (r : Registry) (fs after : FileSystem) (name : String)
    (key certificate : Path) (makeDefault : Bool) (e : KeyError) :
    runOn (r.add name (checkKeyFile key) (checkKeyFile certificate) makeDefault) fs
        = (.error e, after)
      ↔ FirstOf [namedCheck name, r.freshCheck name, fs.RefusesKeyFile key,
          fs.RefusesKeyFile certificate] e ∧ after = fs := by
  rw [add_run, ← check_of_keyFile fs key, ← check_of_keyFile fs certificate,
    ← guarded_add r name (fs.keyFile key) (fs.keyFile certificate) makeDefault e, Prod.mk.injEq]
  exact and_congr Iff.rfl eq_comm

/-! ## §3. All the changes. -/

/-- **When a change is refused, and with which error.**  The operations make their checks in a
fixed order, and the first that refuses gives the error; nothing else makes them fail.  This is
so for every registry, also for one that breaks the rules, and what was refused has left the
registry as it was. -/
theorem changes_refused (r : Registry) :
    (∀ name key certificate makeDefault (fs after : FileSystem) e,
        runOn (r.add name (checkKeyFile key) (checkKeyFile certificate) makeDefault) fs
            = (.error e, after)
          ↔ FirstOf [namedCheck name, r.freshCheck name, fs.RefusesKeyFile key,
              fs.RefusesKeyFile certificate] e ∧ after = fs)
    ∧ (∀ name e, FirstOf [namedCheck name, r.freshCheck name] e →
        ∀ (m : Type → Type) [Monad m] [LawfulMonad m] (key certificate : ExceptT KeyError m String)
          (makeDefault : Bool), r.add name key certificate makeDefault = throw e)
    ∧ (∀ cancelled name (key : PluginKey) makeDefault e,
        r.addPlugin cancelled name key makeDefault = .error e
          ↔ FirstOf [.against (cancelled = true) .cancelled, namedCheck name,
              .against (isBlank key.id = true) .emptyPluginId,
              .against (isBlank key.pluginName = true) .emptyPluginName, r.freshCheck name] e)
    ∧ (∀ name e, r.get name = .error e ↔ FirstOf [namedCheck name, r.knownCheck name] e)
    ∧ (∀ name e, r.updateDefault name = .error e ↔ r.get name = .error e)
    ∧ (∀ name e, r.remove name = .error e ↔ r.get name = .error e)
    ∧ ∀ (call : Call) e after,
        call.inPlace.on r = (.error e, after) ↔ call.perform r = .error e ∧ after = r := by
  refine ⟨?_, ?_, ?_, guarded_get r, updateDefault_eq_error_iff r, remove_eq_error_iff r, ?_⟩
  · intro name key certificate makeDefault fs after e
    exact add_eq_error_iff r fs after name key certificate makeDefault e
  · intro name e h m _ _ key certificate makeDefault
    exact add_throws h key certificate makeDefault
  · intro cancelled name key makeDefault
    exact guarded_addPlugin r cancelled name key makeDefault
  · intro call e after
    exact call.inPlace_eq_error_iff r after e

end Registry

end Keyring
