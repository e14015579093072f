/-
  Keyring.Proofs.Store.Failure
  ────────────────────────────────
  **A FAILURE LEAVES EVERY FILE AS IT WAS.**

  A change can fail in four places: the document cannot be loaded, the
  operation refuses, the result breaks a rule, or a file operation of the
  save fails.  In the first three nothing has been touched.  In the fourth
  folders may have been made on the way to the document; the temporary
  file, if there was one, is gone, and every file and link is as it was.

  This is so whether an operation fails for what stands in its way or
  because the disk fails it: a write may be cut short, and so may all else.

      Store.ServeFails — the places, each with what it leaves behind

  Main results:
    * `serveFails_of_error` — where a request has failed;
    * `failure_leaves_files` — saves and requests, on disks that fail too.
-/
import Keyring.Proofs.Store.Faults

namespace Keyring

open FileSystem

/-! ## §1. Where a change has failed. -/

namespace Store

/-- How a request fails, and what it leaves. -/
inductive ServeFails (s : Store) (q : Request) (fs : FileSystem) :
    KeyError → FileSystem → Prop where
  /-- The document cannot be loaded; nothing is touched. -/
  | load {e : KeyError} (unloaded : (runOn s.load fs).1 = .error e) : ServeFails s q fs e fs
  /-- The operation refuses; nothing is touched. -/
  | operation {r : Registry} {e : KeyError} (loaded : (runOn s.load fs).1 = .ok r)
      (refused : r.respond fs q = .error e) : ServeFails s q fs e fs
  /-- The changed registry cannot be saved. -/
  | save {r changed : Registry} {answer : Answer} {e : KeyError} {after : FileSystem}
      (loaded : (runOn s.load fs).1 = .ok r) (answered : r.respond fs q = .ok (answer, changed))
      (unsaved : s.SaveFails changed fs e after) : ServeFails s q fs e after

variable {s : Store} {fs after : FileSystem} {e : KeyError}

theorem SaveFails.leavesFiles {r : Registry} (h : s.SaveFails r fs e after) :
    s.LeavesFiles fs after := by
  cases h with
  | rules broken => exact .refl s fs
  | disk kept left => exact left

theorem ServeFails.leavesFiles {q : Request} (h : s.ServeFails q fs e after) :
    s.LeavesFiles fs after := by
  cases h with
  | load unloaded => exact .refl s fs
  | operation loaded refused => exact .refl s fs
  | save loaded answered unsaved => exact unsaved.leavesFiles

theorem saveFails_of_error {r : Registry} (h : runOn (s.save r) fs = (.error e, after)) :
    s.SaveFails r fs e after := by
  rcases save_eq_error h with ⟨violation, broken, rfl, rfl⟩ | ⟨kept, ⟨cause, rfl⟩, rfl⟩
  · exact .rules broken
  · exact .disk kept (s.grownAlong_ready fs).leavesFiles

/-- A request fails in loading, in its operation or in the save. -/
theorem serveFails_of_error {q : Request} (h : runOn (s.serve q) fs = (.error e, after)) :
    s.ServeFails q fs e after := by
  have hrun : (runOn s.load fs).1 = s.loaded fs := congrArg Prod.fst (load_run s fs)
  cases hload : s.loaded fs with
  | error cause =>
      rw [serve_run, hload] at h
      cases h
      exact .load (hrun.trans hload)
  | ok r =>
      rw [serve_of_loaded hload] at h
      cases hanswer : r.respond fs q with
      | error cause =>
          rw [hanswer] at h
          cases h
          exact .operation (hrun.trans hload) hanswer
      | ok result =>
          obtain ⟨answer, changed⟩ := result
          rw [hanswer] at h
          refine .save (hrun.trans hload) hanswer (saveFails_of_error ?_)
          -- a request that only looks does not fail any more, and the others save
          change (if q.isChange = true then s.saving changed answer fs else _) = _ at h
          split at h
          · unfold Store.saving at h
            rcases hsave : runOn (s.save changed) fs with ⟨cause | _, saved⟩
            · rw [hsave] at h
              cases h
              rfl
            · rw [hsave] at h
              cases h
          · cases h

end Store

/-! ## §2. All failures. -/

theorem FailsSafely.leavesFiles {s : Store} {fs after : FileSystem} {e : KeyError}
    (h : FailsSafely s fs e after) : s.LeavesFiles fs after := by
  rcases h with rfl | ⟨changed, hunsaved⟩
  · exact .refl s after
  · exact hunsaved.leavesFiles

/-- **A failure leaves every file as it was.**  Whether a registry is saved directly or a request
is served: if this fails, all files and links are as they were, and what is new are folders on
the way to the document.  Only a file operation of a save brings these about: where the document
cannot be loaded, the operation refuses or a rule is broken, there is no difference at all.  The
same holds on a disk that fails any of the operations at any time, whatever part of a write it has
done, as long as the temporary file can be removed. -/
theorem failure_leaves_files (s : Store) (fs : FileSystem) :
    (∀ r e, (runOn (s.save r) fs).1 = .error e →
      s.SaveFails r fs e (runOn (s.save r) fs).2 ∧ s.LeavesFiles fs (runOn (s.save r) fs).2)
    ∧ (∀ q e, (runOn (s.serve q) fs).1 = .error e →
      s.ServeFails q fs e (runOn (s.serve q) fs).2
      ∧ s.LeavesFiles fs (runOn (s.serve q) fs).2)
    ∧ ∀ disk : FaultyDisk, disk.files = fs →
      (∀ r e, (runOn (s.save r) disk).1 = .error e →
        s.SaveFails r fs e (runOn (s.save r) disk).2.files
        ∧ s.LeavesFiles fs (runOn (s.save r) disk).2.files)
      ∧ ∀ q e, (runOn (s.serve q) disk).1 = .error e →
        ((runOn (s.serve q) disk).2.files = fs
          ∨ ∃ changed, s.SaveFails changed fs e (runOn (s.serve q) disk).2.files)
        ∧ s.LeavesFiles fs (runOn (s.serve q) disk).2.files := by
  refine ⟨fun r e h => ?_, fun q e h => ?_, fun disk hfiles => ⟨fun r e h => ?_, fun q e h => ?_⟩⟩
  · have hfails : s.SaveFails r fs e _ := Store.saveFails_of_error (Prod.ext h rfl)
    exact ⟨hfails, hfails.leavesFiles⟩
  · have hfails : s.ServeFails q fs e _ := Store.serveFails_of_error (Prod.ext h rfl)
    exact ⟨hfails, hfails.leavesFiles⟩
  · have hfails := (meets_save s r fs).of_error hfiles h
    exact ⟨hfails, hfails.leavesFiles⟩
  · have hfails := (meets_serve s q fs).of_error hfiles h
    exact ⟨hfails, hfails.leavesFiles⟩

/-- The path of a document that is no name: its folder can be made, but nothing moved there. -/
def namelessStore : Store := ⟨.ofString "new/.."⟩

/-- A tree in which nothing stands. -/
def bareTree : FileSystem := ⟨[], []⟩

/-- What a full disk says. -/
def noSpace : FileError := .other "No space left on device" 28

/-- A disk that is full after five bytes of the first write. -/
def fullDisk : FaultyDisk where
  files := bareTree
  -- before it the document is looked for, and a folder and a file are made
  faults := [none, none, none, some ⟨noSpace, 5⟩]

theorem namelessStore_save :
    (runOn (namelessStore.save onePluginKey) bareTree).1 = .error (.io .busy) := by
  decide +kernel

/-- **The move fails after all else has been done, or a write is cut short.**  The folder has been
made, and of the temporary file nothing is left in it. -/
theorem namelessStore_leaves_files :
    (runOn (namelessStore.serve askPluginKey) bareTree).1 = .error (.io .busy)
      ∧ namelessStore.LeavesFiles bareTree (runOn (namelessStore.serve askPluginKey) bareTree).2
      ∧ namelessStore.LeavesFiles bareTree (runOn (namelessStore.save onePluginKey) bareTree).2
      ∧ (runOn (namelessStore.save onePluginKey) bareTree).2.nodes
        = [([Bytes.ofString "new"], .folder)]
      ∧ (runOn (namelessStore.serve askPluginKey) fullDisk).1 = .error (.io noSpace)
      ∧ namelessStore.LeavesFiles bareTree
        (runOn (namelessStore.serve askPluginKey) fullDisk).2.files
      ∧ (runOn (namelessStore.serve askPluginKey) fullDisk).2.files.nodes
        = [([Bytes.ofString "new"], .folder)] := by
  have hload : namelessStore.loaded bareTree = .ok .empty := rfl
  have hserve : (runOn (namelessStore.serve askPluginKey) bareTree).1 = .error (.io .busy) := by
    rw [serve_change hload rfl (respond_askPluginKey bareTree), Store.saving, namelessStore_save]
    rfl
  have hfull : (runOn (namelessStore.serve askPluginKey) fullDisk).1 = .error (.io noSpace) := by
    -- answers cannot be compared, so the run is evaluated without its answer
    have h : ((runOn (namelessStore.serve askPluginKey) fullDisk).1.map fun _ => ())
        = .error (.io noSpace) := by decide +kernel
    generalize (runOn (namelessStore.serve askPluginKey) fullDisk).1 = outcome at h ⊢
    cases outcome <;> cases h
    rfl
  obtain ⟨hsaves, hserves, hdisks⟩ := failure_leaves_files namelessStore bareTree
  exact ⟨hserve, (hserves askPluginKey (.io .busy) hserve).2,
    (hsaves onePluginKey (.io .busy) namelessStore_save).2, by decide +kernel, hfull,
    ((hdisks fullDisk rfl).2 askPluginKey _ hfull).2, by decide +kernel⟩

end Keyring
