/-
  Keyring.Proofs.Store.Faults
  ────────────────────────────────
  **A DISK THAT FAILS.**

  A file system held as a value refuses an operation only for what stands
  in it.  A disk fails besides: it is full, a write is cut short, a
  permission is missing.  Here any operation may meet with a `Fault`, one
  after another or none for a while.  It fails then and has done nothing,
  but a write may have been done in part.  The removal of a temporary file
  alone is relied on.

      Fault       — why an operation fails, and how much a write has done
      FaultyDisk  — files, and the faults of the operations to come
      FaultyDiskM — the file operations on such a disk

  Main results:
    * `attempt_endsIn` — what an operation comes to, with a fault and
      without;
    * `meets_save` — what a save leaves if it fails;
    * `meets_serve` — what a request leaves if it fails.
-/
import Keyring.Proofs.Store.Saving

namespace Keyring

open FileSystem

/-! ## §1. The disk. -/

/-- What befalls an operation: why it fails, and how many bytes of a write are written before. -/
structure Fault where
  cause : FileError
  written : Nat
  deriving DecidableEq, Repr

/-- Files on a disk that fails. -/
structure FaultyDisk where
  files : FileSystem
  /-- The faults of the operations to come, each in its turn; after these there are none. -/
  faults : List (Option Fault)

/-- Computations on a disk that fails. -/
abbrev FaultyDiskM := StateM FaultyDisk

namespace FaultyDiskM

/-- An operation that no fault befalls. -/
def onFiles (operation : DiskM α) : FaultyDiskM α := fun disk =>
  let done := Id.run (operation.run disk.files)
  (done.1, { disk with files := done.2 })

/-- An operation, or what is done in its place if a fault befalls it. -/
def attempt (operation : DiskM (Except FileError α)) (instead : Fault → DiskM Unit) :
    FaultyDiskM (Except FileError α) := fun disk =>
  match disk.faults with
  | [] => onFiles operation disk
  | none :: faults => onFiles operation { disk with faults := faults }
  | some fault :: faults =>
    (.error fault.cause, ⟨(Id.run ((instead fault).run disk.files)).2, faults⟩)

/-- An operation that is done as a whole or not at all. -/
def attemptWhole (operation : DiskM (Except FileError α)) : FaultyDiskM (Except FileError α) :=
  attempt operation fun _ => return ()

end FaultyDiskM

open FaultyDiskM

instance : MonadDisk FaultyDiskM where
  read p := attemptWhole (MonadDisk.read p)
  inspect p := attemptWhole (MonadDisk.inspect p)
  isFolder p := do
    match ← attemptWhole (return .ok (← MonadDisk.isFolder p)) with
    | .ok answer => return answer
    -- what cannot be looked at is taken for no folder
    | .error _ => return false
  makeFolder p := attemptWhole (MonadDisk.makeFolder p)
  createTemporary folder := attemptWhole (MonadDisk.createTemporary folder)
  append p content := attempt (MonadDisk.append p content) fun fault => do
    let _ ← MonadDisk.append p (content.take fault.written)
  sync p := attemptWhole (MonadDisk.sync p)
  rename source target := attemptWhole (MonadDisk.rename source target)
  remove p := onFiles (MonadDisk.remove p)
  workingFolder := attemptWhole MonadDisk.workingFolder

/-! ## §2. Operations. -/

/-- **An operation ends as it does on files that do not fail, or with its fault.** -/
theorem attempt_endsIn {operation : DiskM (Except FileError α)} {instead : Fault → DiskM Unit}
    {good : α → FileSystem → Prop} {bad : FileError → FileSystem → Prop} {disk : FaultyDisk}
    (hdone : EndsIn good bad (Id.run (operation.run disk.files)))
    (hfault : ∀ fault, bad fault.cause (Id.run ((instead fault).run disk.files)).2) :
    EndsIn (fun value after => good value after.files) (fun cause after => bad cause after.files)
      (Id.run ((attempt operation instead).run disk)) := by
  have hwhole : ∀ faults, EndsIn (fun value after => good value after.files)
      (fun cause after => bad cause after.files)
      (Id.run ((onFiles operation).run ⟨disk.files, faults⟩)) := by
    intro faults
    show EndsIn _ _ ((Id.run (operation.run disk.files)).1,
      FaultyDisk.mk (Id.run (operation.run disk.files)).2 faults)
    generalize Id.run (operation.run disk.files) = outcome at hdone ⊢
    obtain ⟨cause | value, after⟩ := outcome
    · exact hdone
    · exact hdone
  obtain ⟨files, faults⟩ := disk
  cases faults with
  | nil => exact hwhole []
  | cons fault faults =>
      cases fault with
      | none => exact hwhole faults
      | some fault => exact hfault fault

/-- What an operation keeps on files that do not fail it keeps here, if what is done in its place
keeps it too. -/
theorem attempt_keeps {operation : DiskM (Except FileError α)} {instead : Fault → DiskM Unit}
    (inv : FileSystem → Prop) {disk : FaultyDisk}
    (hdone : inv (Id.run (operation.run disk.files)).2)
    (hfault : ∀ fault, inv (Id.run ((instead fault).run disk.files)).2) :
    inv (Id.run ((attempt operation instead).run disk)).2.files :=
  endsIn_same.1 (attempt_endsIn (endsIn_same.2 hdone) hfault)

/-- What a computation leaves of the files on a disk that fails. -/
abbrev MeetsDespiteFaults (before : FileSystem → Prop) (action : ExceptT KeyError FaultyDiskM α)
    (good : α → FileSystem → Prop) (bad : KeyError → FileSystem → Prop) : Prop :=
  Meets (fun disk => before disk.files) action (fun value disk => good value disk.files)
    (fun e disk => bad e disk.files)

/-- The computation leaves the files as they are. -/
abbrev LooksDespiteFaults (fs : FileSystem) (action : ExceptT KeyError FaultyDiskM α) : Prop :=
  MeetsDespiteFaults (· = fs) action (fun _ => (· = fs)) (fun _ => (· = fs))

theorem meets_attempt {operation : DiskM (Except FileError α)} {instead : Fault → DiskM Unit}
    {before : FileSystem → Prop} {good : α → FileSystem → Prop} {bad : KeyError → FileSystem → Prop}
    (hdone : ∀ files, before files →
      EndsIn good (fun cause => bad (.io cause)) (Id.run (operation.run files)))
    (hfault : ∀ files, before files → ∀ fault,
      bad (.io fault.cause) (Id.run ((instead fault).run files)).2) :
    MeetsDespiteFaults before (Store.io (attempt operation instead)) good bad :=
  Meets.io fun disk h => attempt_endsIn (hdone disk.files h) (hfault disk.files h)

variable {fs : FileSystem}

theorem isFolder_keeps (inv : FileSystem → Prop) (p : Path) (disk : FaultyDisk)
    (h : inv disk.files) :
    inv (Id.run ((MonadDisk.isFolder p : FaultyDiskM Bool).run disk)).2.files := by
  let looking : DiskM (Except FileError Bool) := return .ok (← MonadDisk.isFolder p)
  have hlooked : inv (Id.run ((attemptWhole looking).run disk)).2.files :=
    attempt_keeps inv h fun _ => h
  show inv (Id.run ((attemptWhole looking >>= fun answer => _).run disk)).2.files
  rw [bind_run]
  generalize Id.run ((attemptWhole looking).run disk) = looked at hlooked ⊢
  obtain ⟨_ | _, after⟩ := looked
  · exact hlooked
  · exact hlooked

/-! ## §3. Saving. -/

variable {s : Store} {r : Registry} {temporary : Path}

/-- Folders have been added on the way to the document, and then a temporary file. -/
def HasTemporary (s : Store) (fs : FileSystem) (temporary : Path) (files : FileSystem) : Prop :=
  ∃ ready own content, GrownAlong s.folder.ancestors fs ready ∧ ready.IsTemporary own temporary
    ∧ files = ready.put own (.file content ownerOnly)

/-- A file operation has failed, and of the files this is true. -/
def FailsOnDisk (left : FileSystem → Prop) (e : KeyError) (files : FileSystem) : Prop :=
  (∃ cause, e = .io cause) ∧ left files

theorem meets_makeFolders (s : Store) (fs : FileSystem) :
    MeetsDespiteFaults (· = fs) (Store.io (makeFolders s.folder.ancestors))
      (fun _ => GrownAlong s.folder.ancestors fs)
      (FailsOnDisk (GrownAlong s.folder.ancestors fs)) := by
  refine Meets.io fun disk h => ?_
  have hgrown : GrownAlong s.folder.ancestors fs
      (Id.run ((makeFolders s.folder.ancestors : FaultyDiskM _).run disk)).2.files := by
    refine makeFolders_keeps
      (fun disk : FaultyDisk => GrownAlong s.folder.ancestors fs disk.files) ?_
      (isFolder_keeps (GrownAlong s.folder.ancestors fs)) (h ▸ .refl _ _)
    intro p hp disk h
    refine attempt_keeps (GrownAlong s.folder.ancestors fs) ?_ fun _ => h
    exact alter_keeps (f := fun fs => fs.makeFolder p) h fun after => h.makeFolder hp
  generalize Id.run ((makeFolders s.folder.ancestors : FaultyDiskM _).run disk) = made at hgrown ⊢
  obtain ⟨cause | _, after⟩ := made
  · exact ⟨⟨cause, rfl⟩, hgrown⟩
  · exact hgrown

theorem meets_createTemporary (s : Store) (fs : FileSystem) :
    MeetsDespiteFaults (GrownAlong s.folder.ancestors fs)
      (Store.io (MonadDisk.createTemporary s.folder)) (HasTemporary s fs)
      (FailsOnDisk (GrownAlong s.folder.ancestors fs)) := by
  refine meets_attempt (fun files h => ?_) fun files h fault => ⟨⟨_, rfl⟩, h⟩
  refine change_endsIn (f := fun fs => fs.createTemporary s.folder)
    (fun temporary after hcreated => ?_) fun cause _ => ⟨⟨cause, rfl⟩, h⟩
  obtain ⟨-, own, htemporary, rfl⟩ := createTemporary_eq_ok s.folder_isEmpty hcreated
  exact ⟨files, own, [], h, htemporary, rfl⟩

/-- A write leaves the temporary file, whether or not it is done in full. -/
theorem meets_append (part : Bytes) :
    MeetsDespiteFaults (HasTemporary s fs temporary)
      (Store.io (MonadDisk.append temporary part)) (fun _ => HasTemporary s fs temporary)
      (FailsOnDisk (HasTemporary s fs temporary)) := by
  have happend : ∀ files, HasTemporary s fs temporary files → ∀ bytes, ∃ after,
      DiskM.alter (fun fs => fs.append temporary bytes) files = (.ok (), after)
      ∧ HasTemporary s fs temporary after := by
    rintro files ⟨ready, own, content, hgrown, htemporary, rfl⟩ bytes
    refine ⟨_, ?_, ready, own, content ++ bytes, hgrown, htemporary, rfl⟩
    rw [alter_apply, htemporary.append_eq]
  refine meets_attempt (fun files h => ?_) fun files h fault => ⟨⟨_, rfl⟩, ?_⟩
  · obtain ⟨after, hafter, hleft⟩ := happend files h part
    show EndsIn _ _ (DiskM.alter (fun fs => fs.append temporary part) files)
    rw [hafter]
    exact hleft
  · obtain ⟨after, hafter, hleft⟩ := happend files h (part.take fault.written)
    show HasTemporary s fs temporary
      (DiskM.alter (fun fs => fs.append temporary (part.take fault.written)) files).2
    rw [hafter]
    exact hleft

/-- **Whichever step fails between the temporary file and the document, the file is there.** -/
theorem meets_replace :
    MeetsDespiteFaults (HasTemporary s fs temporary) (s.replace r temporary) (fun _ _ => True)
      (FailsOnDisk (HasTemporary s fs temporary)) := by
  have hsync : MeetsDespiteFaults (HasTemporary s fs temporary)
      (Store.io (MonadDisk.sync temporary)) (fun _ => HasTemporary s fs temporary)
      (FailsOnDisk (HasTemporary s fs temporary)) := by
    refine meets_attempt (fun files h => ?_) fun files h fault => ⟨⟨_, rfl⟩, h⟩
    show EndsIn _ _ ((files.append temporary []).map fun _ => (), files)
    cases files.append temporary [] with
    | ok after => exact h
    | error cause => exact ⟨⟨cause, rfl⟩, h⟩
  have hrename : MeetsDespiteFaults (HasTemporary s fs temporary)
      (Store.io (MonadDisk.rename temporary s.path)) (fun _ _ => True)
      (FailsOnDisk (HasTemporary s fs temporary)) := by
    refine meets_attempt (fun files h => ?_) fun files h fault => ⟨⟨_, rfl⟩, h⟩
    exact alter_endsIn (f := fun fs => fs.rename temporary s.path) (fun _ _ => trivial)
      fun cause _ => ⟨⟨cause, rfl⟩, h⟩
  unfold Store.replace
  exact (Meets.forM fun part _ => meets_append part).bind fun _ => hsync.bind fun _ => hrename

/-- The temporary file is removed, and folders are what remains. -/
theorem grownAlong_afterRemoval {disk : FaultyDisk} (h : HasTemporary s fs temporary disk.files) :
    GrownAlong s.folder.ancestors fs (afterRemoval temporary disk).files := by
  obtain ⟨ready, own, content, hgrown, htemporary, hfiles⟩ := h
  show GrownAlong _ _ (afterRemoval temporary disk.files)
  rw [hfiles, afterRemoval_temporary htemporary]
  exact hgrown

/-- **How a save fails on a disk that fails.** -/
theorem meets_save (s : Store) (r : Registry) (fs : FileSystem) :
    MeetsDespiteFaults (· = fs) (s.save r) (fun _ _ => True) (s.SaveFails r fs) := by
  unfold Store.save
  cases hrules : r.validate with
  | error violation =>
      -- nothing is done
      rintro disk rfl
      rw [Registry.validated, hrules, runOn_bind, runOn_lift]
      exact .rules hrules
  | ok _ =>
      have hfails : ∀ e files, FailsOnDisk (GrownAlong s.folder.ancestors fs) e files →
          s.SaveFails r fs e files := by
        rintro e files ⟨⟨cause, rfl⟩, hgrown⟩
        exact .disk hrules hgrown.leavesFiles
      have hchecked : MeetsDespiteFaults (· = fs)
          (liftM r.validated : ExceptT KeyError FaultyDiskM Registry) (fun _ => (· = fs))
          (s.SaveFails r fs) := by
        rw [Registry.validated, hrules]
        exact Meets.lift fun _ h => h
      refine hchecked.bind fun _ =>
        ((meets_makeFolders s fs).bind fun _ => (meets_createTemporary s fs).bind fun temporary =>
          meets_replace.orRemove fun e disk h => ?_).weaken (fun _ _ h => h)
            fun e disk => hfails e disk.files
      exact ⟨h.1, grownAlong_afterRemoval h.2⟩

/-! ## §4. Requests. -/

theorem looks_load (s : Store) : LooksDespiteFaults fs s.load := by
  refine Keeps.andThen (fun disk h => attempt_keeps (· = fs) h fun _ => h)
    fun content => ?_
  cases content with
  | ok content => exact fun _ h => endsIn_same.2 h
  | error cause => cases cause <;> exact fun _ h => endsIn_same.2 h

theorem looks_checkKeyFile (p : Path) : LooksDespiteFaults fs (checkKeyFile p) := by
  unfold checkKeyFile
  cases p.toString? with
  | none => exact fun _ h => endsIn_same.2 h
  | some text =>
      refine Keeps.andThen (fun disk h => attempt_keeps (· = fs) h fun _ => h)
        fun kind => ?_
      cases kind with
      | error cause => exact fun _ h => endsIn_same.2 h
      | ok kind => cases kind <;> exact fun _ h => endsIn_same.2 h

theorem looks_add (r : Registry) (name : String) (key certificate : Path) (makeDefault : Bool) :
    LooksDespiteFaults fs (r.add name (checkKeyFile key) (checkKeyFile certificate) makeDefault) :=
  (Keeps.lift (r.checkNewName name)).bind fun _ => (looks_checkKeyFile key).bind fun _ =>
    (looks_checkKeyFile certificate).bind fun _ => Meets.pure fun _ h => h

/-- Nothing has changed, or a save has failed. -/
def FailsSafely (s : Store) (fs : FileSystem) (e : KeyError) (files : FileSystem) : Prop :=
  files = fs ∨ ∃ changed, s.SaveFails changed fs e files

theorem LooksDespiteFaults.safely {action : ExceptT KeyError FaultyDiskM α}
    (h : LooksDespiteFaults fs action) :
    MeetsDespiteFaults (· = fs) action (fun _ => (· = fs)) (FailsSafely s fs) :=
  h.weaken (fun _ _ h => h) fun _ _ h => .inl h

theorem safely_save (s : Store) (changed : Registry) (answer : α) :
    MeetsDespiteFaults (· = fs) (s.save changed >>= fun _ => pure answer) (fun _ _ => True)
      (FailsSafely s fs) :=
  ((meets_save s changed fs).weaken (fun _ _ h => h) fun _ _ h => .inr ⟨changed, h⟩).bind
    fun _ => Meets.pure fun _ h => h

theorem safely_mutate (s : Store) (fs : FileSystem)
    {operation : Registry → ExceptT KeyError FaultyDiskM Registry}
    (hoperation : ∀ r, LooksDespiteFaults fs (operation r)) :
    MeetsDespiteFaults (· = fs) (s.mutate operation) (fun _ _ => True) (FailsSafely s fs) :=
  (looks_load s).safely.bind fun r => (hoperation r).safely.bind fun changed =>
    safely_save s changed changed

/-- **How a request fails on a disk that fails.** -/
theorem meets_serve (s : Store) (q : Request) (fs : FileSystem) :
    MeetsDespiteFaults (· = fs) (s.serve q) (fun _ _ => True) (FailsSafely s fs) := by
  cases q with
  | addKey name key certificate makeDefault =>
      have hadd := safely_mutate s fs fun r => looks_add r name key certificate makeDefault
      exact hadd.bind fun _ => Meets.pure fun _ h => h
  | addPluginKey cancelled name key makeDefault =>
      have hadd := safely_mutate s fs fun r =>
        Keeps.lift (r.addPlugin cancelled name key makeDefault)
      exact hadd.bind fun _ => Meets.pure fun _ h => h
  | setDefault name =>
      have hupdate := safely_mutate s fs fun r => Keeps.lift (r.updateDefault name)
      have hset : MeetsDespiteFaults (· = fs) (s.setDefault name) (fun _ _ => True)
          (FailsSafely s fs) := hupdate.bind fun _ => Meets.pure fun _ h => h
      exact hset.bind fun _ => Meets.pure fun _ h => h
  | removeKey name =>
      have hremove : MeetsDespiteFaults (· = fs) (s.removeKey name) (fun _ _ => True)
          (FailsSafely s fs) :=
        (looks_load s).safely.bind fun r =>
          (LooksDespiteFaults.safely (Keeps.lift (r.remove name))).bind fun (removed, left) =>
            safely_save s left removed
      exact hremove.bind fun _ => Meets.pure fun _ h => h
  | listKeys => exact (looks_load s).safely.bind fun _ => Meets.pure fun _ _ => trivial
  | resolveKey name =>
      have hresolve : LooksDespiteFaults fs (s.resolveKey name) :=
        (looks_load s).bind fun r => Keeps.lift (r.resolve name)
      exact hresolve.safely.bind fun _ => Meets.pure fun _ _ => trivial

end Keyring
