/-
  Keyring.Proofs.Store.Folders
  ────────────────────────────────
  **MAKING FOLDERS.**

  Before a document is written its folder is made, and the folders above
  that one as far as they are missing.  This adds folders where nothing
  stood and changes nothing else, however far it gets.

      Grown         — folders have been added
      LeadsToFolder — a path and the place of the folder it leads to
      GrownAlong    — folders have been added, each where one of some paths
                      leads
      Store.LeavesFiles — what may differ after a failure

  Main results:
    * `grownAlong_withFolders` — making folders adds folders on the way,
      and nothing else;
    * `folder_names` — the folder of a document by its names;
    * `GrownAlong.leavesFiles` — where folders alone have been added the
      files are left.
-/
import Keyring.Proofs.FileSystem.Tree
import Keyring.Proofs.Store.Requests

namespace Keyring

open Keyring.Path (namesAmong)

/-! ## §1. Folders that are added. -/

namespace FileSystem

/-- Folders have been added where nothing stood. -/
structure Grown (fs after : FileSystem) : Prop where
  workingFolder : after.workingFolder = fs.workingFolder
  node : ∀ place, after.node? place = fs.node? place
    ∨ fs.node? place = none ∧ after.node? place = some .folder

namespace Grown

variable {fs middle after : FileSystem}

theorem refl (fs : FileSystem) : fs.Grown fs where
  workingFolder := rfl
  node := fun _ => .inl rfl

theorem trans (first : fs.Grown middle) (second : middle.Grown after) : fs.Grown after where
  workingFolder := second.workingFolder.trans first.workingFolder
  node := by
    intro place
    rcases second.node place with hsecond | ⟨hnone, hsecond⟩
    · rw [hsecond]
      exact first.node place
    · rcases first.node place with hfirst | ⟨-, hfirst⟩
      · exact .inr ⟨hfirst.symm.trans hnone, hsecond⟩
      · rw [hfirst] at hnone
        cases hnone

theorem makeFolder {p : Path} (h : fs.makeFolder p = .ok after) : fs.Grown after := by
  obtain ⟨e, -, hfree, rfl⟩ := makeFolder_eq_ok h
  refine ⟨rfl, fun place => ?_⟩
  rw [node?_put fs .folder (ne_nil_of_node?_eq_none hfree)]
  split
  · next heq => exact .inr ⟨heq ▸ hfree, rfl⟩
  · exact .inl rfl

theorem extendsTo (h : fs.Grown after) : fs.ExtendsTo after where
  workingFolder := h.workingFolder
  node := by
    intro place node hnode _
    rcases h.node place with hsame | ⟨hnone, -⟩
    · exact hsame.trans hnode
    · rw [hnone] at hnode
      cases hnode

/-- What stands somewhere still stands there. -/
theorem keeps (h : fs.Grown after) {place : Location} {node : Node}
    (hnode : fs.node? place = some node) : after.node? place = some node := by
  rcases h.node place with hsame | ⟨hnone, -⟩
  · exact hsame.trans hnode
  · rw [hnone] at hnode
    cases hnode

end Grown

/-- The path leads to a folder at this place. -/
def LeadsToFolder (fs : FileSystem) (p : Path) (place : Location) : Prop :=
  checkPath p = .ok ()
    ∧ ∃ links, fs.Reaches mostLinks (startOf p fs.workingFolder) p.names ⟨place, links⟩

theorem LeadsToFolder.extend {fs after : FileSystem} {p : Path} {place : Location}
    (h : fs.LeadsToFolder p place) (hlarger : fs.ExtendsTo after) :
    after.LeadsToFolder p place := by
  obtain ⟨hcheck, links, hreach⟩ := h
  refine ⟨hcheck, links, ?_⟩
  rw [hlarger.workingFolder]
  exact hreach.extend hlarger

theorem LeadsToFolder.locate {fs : FileSystem} {p : Path} {place : Location}
    (h : fs.LeadsToFolder p place) : fs.locate p = .ok place := by
  obtain ⟨hcheck, links, hreach⟩ := h
  have hnames : namesAmong p.names = namesAmong p.segments := Path.namesAmong_idem p.segments
  have hwalk := (reaches_iff_walk _ _ _ _ _).1 (reaches_congr hnames hreach)
  exact (locate_eq_ok_iff fs p place).2 ⟨hcheck, links, hwalk.1⟩

/-- What is new after a folder was made is that folder, and its path leads there. -/
theorem leadsTo_of_makeFolder {fs after : FileSystem} {p : Path}
    (h : fs.makeFolder p = .ok after) {place : Location} {node : Node}
    (hold : fs.node? place = none) (hnew : after.node? place = some node) :
    after.LeadsToFolder p place := by
  obtain ⟨made, links, hcheck, hfree, rfl, hreach⟩ := reaches_of_makeFolder h
  rw [node?_put fs .folder (ne_nil_of_node?_eq_none hfree)] at hnew
  split at hnew
  · next heq =>
    subst heq
    exact ⟨hcheck, links, hreach⟩
  · rw [hold] at hnew
    cases hnew

/-- Folders have been added where nothing stood, each where one of these paths leads. -/
structure GrownAlong (ps : List Path) (fs after : FileSystem) : Prop where
  grown : fs.Grown after
  leads : ∀ place node, fs.node? place = none → after.node? place = some node →
    ∃ p ∈ ps, after.LeadsToFolder p place

theorem GrownAlong.refl (ps : List Path) (fs : FileSystem) : GrownAlong ps fs fs where
  grown := .refl fs
  leads := by
    intro place node hold hnew
    rw [hold] at hnew
    cases hnew

/-- One folder more, by one of the paths. -/
theorem GrownAlong.makeFolder {ps : List Path} {fs middle after : FileSystem} {p : Path}
    (h : GrownAlong ps fs middle) (hp : p ∈ ps) (hmade : middle.makeFolder p = .ok after) :
    GrownAlong ps fs after where
  grown := h.grown.trans (.makeFolder hmade)
  leads := by
    intro place node hold hnew
    cases hmiddle : middle.node? place with
    | none => exact ⟨p, hp, leadsTo_of_makeFolder hmade hmiddle hnew⟩
    | some other =>
        obtain ⟨q, hq, hleads⟩ := h.leads place other hold hmiddle
        exact ⟨q, hq, hleads.extend (Grown.makeFolder hmade).extendsTo⟩

/-! ## §2. Making them. -/

/-- **Making folders adds folders on the way and nothing else, also where it fails.** -/
theorem grownAlong_withFolders (ps : List Path) (fs : FileSystem) :
    GrownAlong ps fs (fs.withFolders ps).2 := by
  refine makeFolders_keeps (GrownAlong ps fs) ?_ (fun _ _ h => h) (.refl ps fs)
  intro p hp middle h
  exact alter_keeps (f := fun fs => fs.makeFolder p) h fun after hmade => h.makeFolder hp hmade

/-- A tree with more folders is one. -/
theorem IsTree.withFolders {fs : FileSystem} (h : fs.IsTree) (ps : List Path) :
    (fs.withFolders ps).2.IsTree := by
  refine makeFolders_keeps IsTree ?_ (fun _ _ h => h) h
  intro p _ middle h
  exact alter_keeps (f := fun fs => fs.makeFolder p) h fun after hmade => h.makeFolder hmade

/-- A folder that is there is as good as one that was made. -/
def present (fs : FileSystem) (p : Path) (e : FileError) : Except FileError Unit :=
  if fs.isFolder p then .ok () else .error e

theorem orPresent_run (p : Path) (e : FileError) (fs : FileSystem) :
    Id.run ((makeFolders.orPresent p e : DiskM (Except FileError Unit)).run fs)
      = (fs.present p e, fs) := by
  show Id.run ((if fs.isFolder p = true then return .ok () else return .error e
    : DiskM (Except FileError Unit)).run fs) = _
  unfold present
  split <;> rfl

/-- The folders above come first where the folder itself cannot be made for want of them. -/
theorem withFolders_cons (fs : FileSystem) (p : Path) (above : List Path) :
    fs.withFolders (p :: above) = match fs.makeFolder p with
      | .ok after => (.ok (), after)
      | .error .notFound => match fs.withFolders above with
        | (.error e, middle) => (.error e, middle)
        | (.ok (), middle) => match middle.makeFolder p with
          | .ok after => (.ok (), after)
          | .error e => (middle.present p e, middle)
      | .error e => (fs.present p e, fs) := by
  unfold withFolders
  show Id.run ((DiskM.alter (fun fs => fs.makeFolder p) >>= _).run fs) = _
  rw [alter_bind_run]
  cases fs.makeFolder p with
  | ok after => rfl
  | error e =>
      cases e
      case notFound =>
        -- the folders above, and then the folder once more
        refine (bind_run (makeFolders above) _ fs).trans ?_
        rcases Id.run ((makeFolders above : DiskM (Except FileError Unit)).run fs)
          with ⟨_ | _, middle⟩
        · rfl
        show Id.run ((DiskM.alter (fun fs => fs.makeFolder p) >>= _).run middle) = _
        rw [alter_bind_run]
        show _ = match middle.makeFolder p with
          | .ok after => _
          | .error e => _
        cases middle.makeFolder p with
        | ok after => rfl
        | error e => exact orPresent_run p e middle
      all_goals exact orPresent_run p _ fs

/-- Where the first of the folders is there, nothing is made. -/
theorem withFolders_of_isFolder {fs : FileSystem} {p : Path} (h : fs.isFolder p = true)
    (above : List Path) : fs.withFolders (p :: above) = (.ok (), fs) := by
  rw [withFolders_cons, makeFolder_of_isFolder h]
  show (fs.present p .exists, fs) = _
  unfold present
  rw [if_pos h]

end FileSystem

/-! ## §3. The folder of a document. -/

namespace Store

theorem folder_isEmpty (s : Store) : s.folder.isEmpty = false := by
  unfold folder
  split
  · next up _ =>
    split
    · rfl
    · next hempty => simpa using hempty
  · rfl

/-- The folders that are made begin with that of the document. -/
theorem folder_ancestors (s : Store) : ∃ above, s.folder.ancestors = s.folder :: above := by
  have hempty := s.folder_isEmpty
  obtain ⟨length, hlength⟩ : ∃ n, s.folder.bytes.length = n + 1 := by
    cases hbytes : s.folder.bytes with
    | nil => rw [Path.isEmpty, hbytes] at hempty; cases hempty
    | cons byte rest => exact ⟨rest.length, rfl⟩
  unfold Path.ancestors
  rw [hlength, Path.ancestors.go, if_neg (by simp [hempty])]
  split
  · exact ⟨_, rfl⟩
  · exact ⟨_, rfl⟩

/-- **The folder of a document has all names of its path but the last, and starts where the path
starts.** -/
theorem folder_names (s : Store) (hnames : s.path.names ≠ []) :
    s.folder.names = s.path.names.dropLast ∧ s.folder.isAbsolute = s.path.isAbsolute := by
  unfold folder
  cases hparent : s.path.parent? with
  | none => exact absurd (Path.parent?_eq_none hparent) hnames
  | some up =>
      obtain ⟨hup, habsolute⟩ := Path.parent?_eq_some hparent
      show (if up.isEmpty = true then (⟨dot⟩ : Path) else up).names = _
        ∧ (if up.isEmpty = true then (⟨dot⟩ : Path) else up).isAbsolute = _
      -- an empty parent is written `.`, which has no names either
      split
      · next hempty =>
        have hbytes : up = ⟨[]⟩ := by
          obtain ⟨bytes⟩ := up
          exact congrArg Path.mk (List.isEmpty_iff.1 hempty)
        subst hbytes
        exact ⟨hup, habsolute⟩
      · exact ⟨hup, habsolute⟩

end Store

open FileSystem

/-! ## §4. What may differ after a failure. -/

/-- All that stood anywhere stands there still, with the same contents and permissions; and what
is new is a folder to which the path of the document's folder, or of a folder above that one,
leads. -/
structure Store.LeavesFiles (s : Store) (fs after : FileSystem) : Prop where
  workingFolder : after.workingFolder = fs.workingFolder
  kept : ∀ place node, fs.node? place = some node → after.node? place = some node
  new : ∀ place node, fs.node? place = none → after.node? place = some node →
    node = .folder ∧ ∃ p ∈ s.folder.ancestors, after.locate p = .ok place

namespace Store

theorem LeavesFiles.refl (s : Store) (fs : FileSystem) : s.LeavesFiles fs fs where
  workingFolder := rfl
  kept := fun _ _ h => h
  new := fun place node hold hnew => by
    rw [hold] at hnew
    cases hnew

/-- Where the files are left, folders have been added and nothing else. -/
theorem LeavesFiles.grown {s : Store} {fs after : FileSystem} (h : s.LeavesFiles fs after) :
    fs.Grown after where
  workingFolder := h.workingFolder
  node := by
    intro place
    cases hold : fs.node? place with
    | some node => exact .inl (h.kept place node hold)
    | none =>
        cases hnew : after.node? place with
        | none => exact .inl rfl
        | some node =>
            obtain ⟨rfl, -⟩ := h.new place node hold hnew
            exact .inr ⟨rfl, rfl⟩

end Store

/-- **Where folders have been added on the way to a document the files are left.** -/
theorem FileSystem.GrownAlong.leavesFiles {s : Store} {fs after : FileSystem}
    (h : GrownAlong s.folder.ancestors fs after) : s.LeavesFiles fs after where
  workingFolder := h.grown.workingFolder
  kept := fun _ _ => h.grown.keeps
  new := by
    intro place node hold hnew
    constructor
    · rcases h.grown.node place with hsame | ⟨-, hfolder⟩
      · rw [hsame, hold] at hnew
        cases hnew
      · rw [hfolder] at hnew
        exact (Option.some.inj hnew).symm
    · obtain ⟨p, hp, hleads⟩ := h.leads place node hold hnew
      exact ⟨p, hp, hleads.locate⟩

end Keyring
