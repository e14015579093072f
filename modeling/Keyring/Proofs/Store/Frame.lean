/-
  Keyring.Proofs.Store.Frame
  ────────────────────────────────
  **THE FRAME OF A SAVE.**

  A successful save touches one entry of the tree, the one the path of the
  document ends in, and there it leaves a file that only its owner may
  read.  Whatever else stood in the tree stands there still, and so does
  the target of a link that the document has replaced.  What is new besides
  are folders without which there would be no folder to save in
  (`Store.Needs`).

  Whether the path names the document afterwards is another matter: the
  document may have replaced a link through which its own path goes.

  Main results:
    * `Store.needs_of_new` — each folder made for a document is needed;
    * `Store.Replaces.named_iff` — the path names the new document just if
      it is clear;
    * `save_frame` — all that a successful save does to a tree.
-/
import Keyring.Proofs.Store.Failure
import Keyring.Proofs.Store.Transparency

namespace Keyring

open FileSystem

/-! ## §1. Folders that are needed. -/

/-- Without what stands at the place there would be no folder for the document. -/
def Store.Needs (s : Store) (fs : FileSystem) (place : Location) : Prop :=
  (s.ready fs).isFolder s.folder = true ∧ ((s.ready fs).erase place).isFolder s.folder = false

/-- Where the first names of a path lead to a folder, the path does not lead on without it. -/
theorem FileSystem.LeadsToFolder.isFolder_erase {fs : FileSystem} {up p : Path} {place : Location}
    (h : fs.LeadsToFolder up place) (hplace : place ≠ []) (hnames : up.names <+: p.names)
    (habsolute : up.isAbsolute = p.isAbsolute) : (fs.erase place).isFolder p = false := by
  obtain ⟨-, links, hup⟩ := h
  obtain ⟨rest, hrest⟩ := hnames
  rw [Bool.eq_false_iff]
  intro hfolder
  obtain ⟨-, arrival, hreach⟩ := (isFolder_iff _ p).1 hfolder
  rw [← hrest, reaches_append_iff] at hreach
  obtain ⟨middle, hmiddle, -⟩ := hreach
  -- the walk along the first names would arrive at the same place, where nothing is left
  have hstart : startOf up fs.workingFolder = startOf p fs.workingFolder := by
    unfold startOf
    rw [habsolute]
  rw [hstart] at hup
  obtain rfl := hup.unique (hmiddle.extend (erase_extendsTo fs hplace))
  rcases hmiddle.hasFolder_arrival with hgone | hgone <;>
    (rw [node?_erase fs hplace, if_pos rfl] at hgone; cases hgone)

variable {s : Store} {r : Registry} {fs after : FileSystem} {place : Location}

/-- **Each folder made for a document is needed.** -/
theorem Store.needs_of_new {node : Node} (hready : (s.ready fs).isFolder s.folder = true)
    (hold : fs.node? place = none) (hnew : (s.ready fs).node? place = some node) :
    s.Needs fs place := by
  obtain ⟨p, hp, hleads⟩ := (grownAlong_withFolders s.folder.ancestors fs).leads _ _ hold hnew
  obtain ⟨hnames, habsolute⟩ := Path.names_of_mem_ancestors hp
  exact ⟨hready, hleads.isFolder_erase (ne_nil_of_node?_eq_none hold) hnames habsolute⟩

/-! ## §2. The document. -/

/-- **After a save the path names the new document just if it is clear.** -/
theorem Store.Replaces.named_iff (h : s.Replaces r fs after place) :
    after.nodeNamed s.path = .ok (.file (Store.encode r) ownerOnly) ↔ s.IsClear fs := by
  constructor
  · intro hnamed
    by_contra hclear
    -- a file that is named is what the path leads to
    have hat := nodeAt_of_nodeNamed hnamed (by simp)
    rw [nodeAt_after_blind_save hclear h] at hat
    cases hat
  · intro hclear
    exact nodeNamed_of_entry (entry_after_save hclear h).2 h.node?_place

/-! ## §3. The frame. -/

/-- **What a successful save does to a tree.**  The entry that the path leads to in the tree with
its folders is now a file with the printed registry and a newline, for the owner alone; the path
names that file just if it is clear.  All else that stood in the tree is unchanged, and what is
new besides are folders that the document needs. -/
theorem save_frame (h : runOn (s.save r) fs = (.ok (), after)) :
    ∃ place, s.landing fs = .ok ⟨place, false⟩
      ∧ after.node? place = some (.file (Bytes.ofString (Document.print r ++ "\n")) 0o600)
      ∧ (after.nodeNamed s.path = .ok (.file (Bytes.ofString (Document.print r ++ "\n")) 0o600)
          ↔ s.IsClear fs)
      ∧ after.workingFolder = fs.workingFolder
      ∧ (∀ other node, other ≠ place → fs.node? other = some node →
          after.node? other = some node)
      ∧ ∀ other node, other ≠ place → fs.node? other = none → after.node? other = some node →
          node = .folder ∧ s.Needs fs other := by
  obtain ⟨place, hplace⟩ := save_eq_ok h
  have hgrown := s.grown_ready fs
  have hready : (s.ready fs).isFolder s.folder = true :=
    Store.isFolder_of_entry hplace.folder hplace.entry
  refine ⟨place, hplace.entry, hplace.node?_place, hplace.named_iff,
    hplace.workingFolder.trans hgrown.workingFolder, ?_, ?_⟩
  · intro other node hne hnode
    rw [hplace.node?_other hne]
    exact hgrown.keeps hnode
  · intro other node hne hold hnew
    rw [hplace.node?_other hne] at hnew
    exact ⟨((s.grownAlong_ready fs).leavesFiles.new other node hold hnew).1,
      Store.needs_of_new hready hold hnew⟩

/-- **A document that has come to stand in the way of its own path.**  It is where the link was,
the folder the link led to is still there, and the path names nothing any more. -/
theorem tangled_frame :
    (runOn (tangledStore.save onePluginKey) tangled).1 = .ok ()
      ∧ (runOn (tangledStore.save onePluginKey) tangled).2.node? [[0x6C]]
        = some (.file (Bytes.ofString (Document.print onePluginKey ++ "\n")) 0o600)
      ∧ (runOn (tangledStore.save onePluginKey) tangled).2.nodeNamed tangledStore.path
        ≠ .ok (.file (Bytes.ofString (Document.print onePluginKey ++ "\n")) 0o600)
      ∧ (runOn (tangledStore.save onePluginKey) tangled).2.node? [[0x64]] = some .folder
      ∧ tangledStore.Needs tangled [Bytes.ofString "new"] := by
  obtain ⟨place, hentry, hnode, hnamed, -, hkept, hnew⟩ :=
    save_frame (Prod.ext tangled_save rfl :
      runOn (tangledStore.save onePluginKey) tangled = (.ok (), _))
  obtain rfl : place = [[0x6C]] := by
    rw [show tangledStore.landing tangled = .ok ⟨[[0x6C]], false⟩ by decide +kernel] at hentry
    cases hentry
    rfl
  exact ⟨tangled_save, hnode, fun h => tangled_not_clear (hnamed.1 h),
    hkept [[0x64]] .folder (by decide) rfl,
    (hnew [Bytes.ofString "new"] .folder (by decide +kernel) (by decide +kernel)
      (by decide +kernel)).2⟩

end Keyring
