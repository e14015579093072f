/-
  Keyring.Proofs.Store.Saving
  ────────────────────────────────
  **WHAT A SUCCESSFUL SAVE HAS DONE.**

  Folders have been made where nothing stood; in the tree with these the
  path of the document leads to a place, and a file with the new document
  stands there now.  All else is as it was.

  Main results:
    * `replaced_eq`   — a temporary file is filled and moved, or gone;
    * `save_eq_ok`    — the tree after a successful save, place by place;
    * `save_eq_error` — the tree after a failed one;
    * `IsTree.serve`  — a file system that is a tree stays one.
-/
import Keyring.Proofs.Store.Folders

namespace Keyring

/-! ## §1. A temporary file. -/

open FileSystem

theorem flatten_documentParts (r : Registry) :
    (Store.documentParts r).flatten = Store.encode r := by
  unfold Store.documentParts Store.encode
  rw [Bytes.ofString_append]
  simp

section Temporary

variable {fs : FileSystem} {own : Location} {temporary : Path}

/-- **What is written to a temporary file, part after part, is what it holds.** -/
theorem append_parts_run (h : fs.IsTemporary own temporary) (parts : List Bytes)
    (before : Bytes) :
    runOn (forM parts fun part => Store.io (MonadDisk.append temporary part))
        (fs.put own (.file before ownerOnly))
      = (.ok (), fs.put own (.file (before ++ parts.flatten) ownerOnly)) := by
  -- on the parts: each finds the file with all that was written before
  induction parts generalizing before with
  | nil =>
      rw [List.flatten_nil, List.append_nil]
      rfl
  | cons part parts ih =>
      have hpart : Id.run ((MonadDisk.append temporary part : DiskM _).run
          (fs.put own (.file before ownerOnly)))
          = (.ok (), fs.put own (.file (before ++ part) ownerOnly)) := by
        show DiskM.alter (fun fs => fs.append temporary part) _ = _
        rw [alter_apply, h.append_eq]
      rw [List.forM_cons, runOn_bind, runOn_io, hpart]
      dsimp only
      rw [ih, List.flatten_cons, List.append_assoc]

theorem afterRemoval_temporary (h : fs.IsTemporary own temporary) (content : Bytes) :
    afterRemoval temporary (fs.put own (.file content ownerOnly)) = fs := by
  show (DiskM.alter (fun fs => fs.remove temporary) _).2 = fs
  rw [alter_apply, h.remove_eq]

/-- **A temporary file is filled and moved over the document; if it cannot be moved it leaves no
trace.** -/
theorem replaced_eq (h : fs.IsTemporary own temporary) (s : Store) (r : Registry) :
    s.replaced r temporary (fs.put own (.file [] ownerOnly))
      = match (fs.put own (.file (Store.encode r) ownerOnly)).rename temporary s.path with
        | .ok after => (.ok (), after)
        | .error cause => (.error (.io cause), fs) := by
  have hsync : Id.run ((MonadDisk.sync temporary : DiskM _).run
      (fs.put own (.file (Store.encode r) ownerOnly)))
      = (.ok (), fs.put own (.file (Store.encode r) ownerOnly)) := by
    show (((fs.put own (.file (Store.encode r) ownerOnly)).append temporary []).map fun _ => (),
      fs.put own (.file (Store.encode r) ownerOnly)) = _
    rw [h.append_eq]
    rfl
  have hmove : Id.run ((MonadDisk.rename temporary s.path : DiskM _).run
      (fs.put own (.file (Store.encode r) ownerOnly)))
      = match (fs.put own (.file (Store.encode r) ownerOnly)).rename temporary s.path with
        | .ok after => (.ok (), after)
        | .error cause => (.error cause, fs.put own (.file (Store.encode r) ownerOnly)) :=
    alter_apply (fun fs => fs.rename temporary s.path) _
  unfold Store.replaced
  rw [orRemove_run]
  unfold Store.replace
  rw [runOn_bind, append_parts_run h, List.nil_append, flatten_documentParts]
  dsimp only
  rw [runOn_bind, runOn_io, hsync]
  dsimp only
  rw [runOn_io, hmove]
  cases (fs.put own (.file (Store.encode r) ownerOnly)).rename temporary s.path with
  | ok after => rfl
  | error cause =>
      dsimp only
      rw [afterRemoval_temporary h]

end Temporary

/-! ## §2. The tree after a save. -/

/-- A temporary file that is moved: where it goes, and that nothing else has changed. -/
theorem rename_temporary_eq_ok {ready after : FileSystem} {own : Location} {node : Node}
    {temporary target : Path} (hfree : ready.node? own = none) (hdead : Node.isDeadEnd node = true)
    (hown : (ready.put own node).locateEntry temporary .busy = .ok ⟨own, false⟩)
    (h : (ready.put own node).rename temporary target = .ok after) :
    ∃ place, ready.locateEntry target .busy = .ok ⟨place, false⟩
      ∧ ready.node? place ≠ some .folder ∧ after.workingFolder = ready.workingFolder
      ∧ ∀ other, after.node? other
        = if other = place then some node else ready.node? other := by
  have hne := ne_nil_of_node?_eq_none hfree
  obtain ⟨leaving, place, moved, hleaving, harriving, hmoved, -, hnot, rfl⟩ := rename_eq_ok h
  -- what leaves is the temporary file: its path leads to its place
  obtain rfl : own = leaving := by
    rw [hown] at hleaving
    cases hleaving
    rfl
  obtain rfl : node = moved := by
    rw [node?_put ready node hne, if_pos rfl] at hmoved
    exact Option.some.inj hmoved
  have hplace : place ≠ [] := by
    rintro rfl
    exact hnot rfl
  -- the temporary file was not on the way of the target, as nobody passes through a file
  refine ⟨place, locateEntry_extend (put_extendsTo hne hdead) harriving, ?_, rfl, fun other => ?_⟩
  · intro hfolder
    rw [node?_put ready node hne] at hnot
    split at hnot
    · next heq =>
      rw [heq, hfree] at hfolder
      cases hfolder
    · exact hnot hfolder
  · rw [node?_put _ node hplace, node?_erase _ hne, node?_put ready node hne]
    split
    · rfl
    · split
      · next heq => rw [heq, hfree]
      · rfl

namespace Store

/-- The tree once the folders of the document are made. -/
def ready (s : Store) (fs : FileSystem) : FileSystem := (fs.withFolders s.folder.ancestors).2

/-- How a save fails, and what it leaves. -/
inductive SaveFails (s : Store) (r : Registry) (fs : FileSystem) :
    KeyError → FileSystem → Prop where
  /-- A rule is broken; nothing is touched. -/
  | rules {violation : Violation} (broken : r.validate = .error violation) :
      SaveFails s r fs (.invalid violation) fs
  /-- The rules are kept, and a file operation fails. -/
  | disk {cause : FileError} {after : FileSystem} (kept : r.validate = .ok ())
      (left : s.LeavesFiles fs after) : SaveFails s r fs (.io cause) after

/-- The entry that a save replaces. -/
def landing (s : Store) (fs : FileSystem) : Except FileError EntryPlace :=
  (s.ready fs).locateEntry s.path .busy

theorem grownAlong_ready (s : Store) (fs : FileSystem) :
    GrownAlong s.folder.ancestors fs (s.ready fs) :=
  grownAlong_withFolders s.folder.ancestors fs

theorem grown_ready (s : Store) (fs : FileSystem) : fs.Grown (s.ready fs) :=
  (s.grownAlong_ready fs).grown

/-- What a successful save has done: at a place where no folder was there is now the document of
the registry, and all else is as it was once the folders were made. -/
structure Replaces (s : Store) (r : Registry) (fs after : FileSystem) (place : Location) :
    Prop where
  rules : r.KeepsRules
  /-- The path of the folder can be handed to the system. -/
  folder : checkPath s.folder = .ok ()
  /-- The folders could be made. -/
  made : (fs.withFolders s.folder.ancestors).1 = .ok ()
  /-- The path of the document then leads to the place. -/
  entry : s.landing fs = .ok ⟨place, false⟩
  notFolder : (s.ready fs).node? place ≠ some .folder
  workingFolder : after.workingFolder = (s.ready fs).workingFolder
  node : ∀ other, after.node? other
    = if other = place then some (.file (encode r) ownerOnly) else (s.ready fs).node? other

variable {s : Store} {fs : FileSystem}

theorem startOf_folder (hnames : s.path.names ≠ []) (place : Location) :
    startOf s.folder place = startOf s.path place := by
  unfold startOf
  rw [(s.folder_names hnames).2]

/-- The path of a document that can be placed ends in a name, in the folder of the document. -/
theorem entry_cases {e : EntryPlace} (h : fs.locateEntry s.path .busy = .ok e) :
    ∃ last arrival, s.path.names = s.folder.names ++ [last] ∧ last ≠ [] ∧ last ≠ dotDot
      ∧ fs.Reaches mostLinks (startOf s.folder fs.workingFolder) s.folder.names arrival
      ∧ e.place = last :: arrival.place := by
  obtain ⟨-, ending, arrival, hending, hdot, hup, hreach, hplace, -⟩ :=
    (locateEntry_eq_ok_iff _ _ _ _).1 h
  have hnames := namesAmong_of_ending? hending hdot
  have hne : s.path.names ≠ [] := by simp [hnames]
  have hfolder := (s.folder_names hne).1
  rw [hnames, List.dropLast_concat] at hfolder
  refine ⟨ending.last, arrival, ?_, (ending?_eq_some hending).1, hup, ?_,
    (place_of_placeIn hplace).1⟩
  · rw [hnames, hfolder]
  · rw [startOf_folder hne, hfolder]
    exact reaches_congr (Path.namesAmong_idem ending.before).symm hreach

/-- The folder of the document can be reached where its entry is found. -/
theorem isFolder_of_entry {e : EntryPlace} (hcheck : checkPath s.folder = .ok ())
    (h : fs.locateEntry s.path .busy = .ok e) : fs.isFolder s.folder = true := by
  obtain ⟨-, arrival, -, -, -, hreach, -⟩ := entry_cases h
  exact (isFolder_iff fs s.folder).2 ⟨hcheck, arrival, hreach⟩

/-- With the folder of the document there, no folder is made. -/
theorem ready_of_isFolder (h : fs.isFolder s.folder = true) : s.ready fs = fs := by
  obtain ⟨above, habove⟩ := s.folder_ancestors
  unfold ready
  rw [habove, withFolders_of_isFolder h]

namespace Replaces

variable {r : Registry} {after : FileSystem} {place : Location}

theorem ne_nil (h : s.Replaces r fs after place) : place ≠ [] := by
  rintro rfl
  exact h.notFolder rfl

theorem node?_place (h : s.Replaces r fs after place) :
    after.node? place = some (.file (encode r) ownerOnly) := by
  rw [h.node, if_pos rfl]

theorem node?_other (h : s.Replaces r fs after place) {other : Location} (hne : other ≠ place) :
    after.node? other = (s.ready fs).node? other := by
  rw [h.node, if_neg hne]

end Replaces

end Store

/-- **A successful save has replaced one entry and made the folders it needed.** -/
theorem save_eq_ok {s : Store} {r : Registry} {fs after : FileSystem}
    (h : runOn (s.save r) fs = (.ok (), after)) : ∃ place, s.Replaces r fs after place := by
  rw [save_run] at h
  cases hvalidated : r.validated with
  | error e => rw [hvalidated] at h; cases h
  | ok checked =>
      obtain ⟨-, hrules⟩ := (Registry.validated_eq_ok_iff r checked).1 hvalidated
      rw [hvalidated] at h
      rcases hfolders : fs.withFolders s.folder.ancestors with ⟨cause | _, ready⟩
      · rw [hfolders] at h; cases h
      rw [hfolders] at h
      obtain rfl : s.ready fs = ready := congrArg Prod.snd hfolders
      cases hcreated : (s.ready fs).createTemporary s.folder with
      | error cause => simp only [hcreated] at h; cases h
      | ok created =>
          obtain ⟨temporary, made⟩ := created
          obtain ⟨hcheck, own, htemporary, rfl⟩ := createTemporary_eq_ok s.folder_isEmpty hcreated
          simp only [hcreated, replaced_eq htemporary] at h
          split at h
          · next hmoved =>
            cases h
            -- the temporary file is gone from where it was, and what it held is in the other place
            obtain ⟨place, hplace, hnot, hworking, hnode⟩ :=
              rename_temporary_eq_ok htemporary.free rfl (htemporary.found _ .busy) hmoved
            exact ⟨place, hrules, hcheck, congrArg Prod.fst hfolders, hplace, hnot, hworking, hnode⟩
          · cases h

/-- **A failed save has made folders at most, and not even these if a rule is broken.** -/
theorem save_eq_error {s : Store} {r : Registry} {fs after : FileSystem} {e : KeyError}
    (h : runOn (s.save r) fs = (.error e, after)) :
    (∃ violation, r.validate = .error violation ∧ e = .invalid violation ∧ after = fs)
      ∨ (r.validate = .ok () ∧ (∃ cause, e = .io cause) ∧ after = s.ready fs) := by
  rw [save_run] at h
  cases hrules : r.validate with
  | error violation =>
      rw [Registry.validated, hrules] at h
      cases h
      exact .inl ⟨violation, rfl, rfl, rfl⟩
  | ok _ =>
      have hvalidated : r.validated = .ok r := by rw [Registry.validated, hrules]
      rw [hvalidated] at h
      -- making the folders fails, or creating the temporary file, or moving it
      rcases hfolders : fs.withFolders s.folder.ancestors with ⟨cause | _, ready⟩
      · rw [hfolders] at h
        cases h
        exact .inr ⟨rfl, ⟨cause, rfl⟩, (congrArg Prod.snd hfolders).symm⟩
      rw [hfolders] at h
      obtain rfl : s.ready fs = ready := congrArg Prod.snd hfolders
      cases hcreated : (s.ready fs).createTemporary s.folder with
      | error cause =>
          simp only [hcreated] at h
          cases h
          exact .inr ⟨rfl, ⟨cause, rfl⟩, rfl⟩
      | ok created =>
          obtain ⟨temporary, made⟩ := created
          obtain ⟨-, own, htemporary, rfl⟩ := createTemporary_eq_ok s.folder_isEmpty hcreated
          simp only [hcreated, replaced_eq htemporary] at h
          split at h
          · cases h
          · next cause _ =>
            cases h
            exact .inr ⟨rfl, ⟨cause, rfl⟩, rfl⟩

/-! ## §3. A tree stays one. -/

theorem keeps_isTree_replace (s : Store) (r : Registry) (temporary : Path) :
    Keeps IsTree (s.replace r temporary) := by
  unfold Store.replace
  refine (Meets.forM fun part _ => Keeps.io fun fs h => ?_).bind fun _ =>
    (Keeps.io fun fs h => ?_).bind fun _ => Keeps.io fun fs h => ?_
  · exact alter_keeps (f := fun fs => fs.append temporary part) h fun after => h.append
  · exact h
  · exact alter_keeps (f := fun fs => fs.rename temporary s.path) h fun after => h.rename

/-- A save leaves a tree, however it ends. -/
theorem keeps_isTree_save (s : Store) (r : Registry) : Keeps IsTree (s.save r) := by
  unfold Store.save
  refine (Keeps.lift r.validated).bind fun _ => (Keeps.io fun fs h => ?_).bind fun _ =>
    (Keeps.io fun fs h => ?_).bind fun temporary =>
      (keeps_isTree_replace s r temporary).orRemove fun _ fs h => ?_
  · exact h.withFolders s.folder.ancestors
  · have hcreate : EndsIn (fun _ => IsTree) (fun _ => IsTree)
        (DiskM.change (fun fs => fs.createTemporary s.folder) fs) :=
      change_endsIn (fun _ _ => h.createTemporary s.folder_isEmpty) fun _ _ => h
    exact endsIn_same.1 hcreate
  · exact alter_keeps (f := fun fs => fs.remove temporary) h fun after => h.remove

theorem FileSystem.IsTree.save {fs : FileSystem} (h : fs.IsTree) (s : Store) (r : Registry) :
    (runOn (s.save r) fs).2.IsTree :=
  endsIn_same.1 (keeps_isTree_save s r fs h)

/-- **A request leaves a tree, however it ends.** -/
theorem FileSystem.IsTree.serve {fs : FileSystem} (h : fs.IsTree) (s : Store) (q : Request) :
    (runOn (s.serve q) fs).2.IsTree := by
  rw [serve_run]
  split
  · exact h
  · split
    · exact h.save s _
    · exact h

end Keyring
