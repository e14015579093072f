/-
  Keyring.Proofs.FileSystem.Tree
  ────────────────────────────────
  **A FILE SYSTEM IS A TREE.**

  Nothing in a list of places and nodes says that what has a name stands in
  a folder.  `IsTree` says so, and every operation by which a file is
  replaced keeps it: each puts something in a folder that is there, and
  none takes a folder away.

  Main results:
    * `IsTree.put`, `IsTree.erase` — what may be put and erased;
    * `IsTree.makeFolder`, `IsTree.createTemporary`, `IsTree.append`,
      `IsTree.rename`, `IsTree.remove` — the operations.
-/
import Keyring.Proofs.FileSystem.Effects

namespace Keyring.FileSystem

/-- All that has a name stands in a folder. -/
def IsTree (fs : FileSystem) : Prop :=
  ∀ name folder node, name ≠ [] → fs.node? (name :: folder) = some node →
    fs.node? folder = some .folder

/-! ## §1. Putting and erasing. -/

/-- A folder can hold anything, as long as no folder is replaced by something else. -/
theorem IsTree.put {fs : FileSystem} (h : fs.IsTree) {name : Bytes} {folder : Location}
    {node : Node} (hfolder : fs.node? folder = some .folder)
    (hold : node = .folder ∨ fs.node? (name :: folder) ≠ some .folder) :
    (fs.put (name :: folder) node).IsTree := by
  have hne : name :: folder ≠ [] := List.cons_ne_nil _ _
  -- a folder stays a folder, since at most a folder is put in its place
  have hkeep : ∀ other, fs.node? other = some .folder →
      (fs.put (name :: folder) node).node? other = some .folder := by
    intro other hother
    rw [node?_put fs node hne]
    split
    · next heq =>
      rcases hold with rfl | hnot
      · rfl
      · rw [heq] at hother
        exact absurd hother hnot
    · exact hother
  intro otherName otherFolder otherNode hname hother
  rw [node?_put fs node hne] at hother
  -- the new node stands in a folder, and every other node in the one it stood in
  split at hother
  · next heq =>
    cases heq
    exact hkeep _ hfolder
  · exact hkeep _ (h otherName otherFolder otherNode hname hother)

/-- What is no folder can be erased. -/
theorem IsTree.erase {fs : FileSystem} (h : fs.IsTree) {place : Location} (hne : place ≠ [])
    (hnot : fs.node? place ≠ some .folder) : (fs.erase place).IsTree := by
  intro name folder node hname hnode
  rw [node?_erase fs hne] at hnode ⊢
  split at hnode
  · cases hnode
  · have hfolder := h name folder node hname hnode
    have hother : folder ≠ place := by
      rintro rfl
      exact hnot hfolder
    rw [if_neg hother, hfolder]

/-! ## §2. The operations. -/

/-- An entry is a name in a folder that is there. -/
theorem folder_of_locateEntry {fs : FileSystem} {p : Path} {noName : FileError} {e : EntryPlace}
    (h : fs.locateEntry p noName = .ok e) :
    ∃ name folder, e.place = name :: folder ∧ fs.node? folder = some .folder := by
  obtain ⟨-, ending, arrival, -, -, -, hreach, hplace, -⟩ := (locateEntry_eq_ok_iff _ _ _ _).1 h
  obtain ⟨hcons, hremoved, -⟩ := place_of_placeIn hplace
  refine ⟨ending.last, arrival.place, hcons, ?_⟩
  rcases hreach.hasFolder_arrival with hfolder | hgone
  · exact hfolder
  · exact absurd hgone hremoved

theorem IsTree.makeFolder {fs after : FileSystem} (h : fs.IsTree) {p : Path}
    (hmade : fs.makeFolder p = .ok after) : after.IsTree := by
  obtain ⟨e, he, -, rfl⟩ := makeFolder_eq_ok hmade
  obtain ⟨name, folder, hplace, hfolder⟩ := folder_of_locateEntry he
  rw [hplace]
  exact h.put hfolder (.inl rfl)

theorem IsTree.createTemporary {fs after : FileSystem} (h : fs.IsTree) {folder path : Path}
    (hne : folder.isEmpty = false) (hmade : fs.createTemporary folder = .ok (path, after)) :
    after.IsTree := by
  obtain ⟨-, own, htemporary, rfl⟩ := createTemporary_eq_ok hne hmade
  obtain ⟨name, around, rfl, haround⟩ := folder_of_locateEntry (htemporary.found [] .busy)
  refine h.put ?_ (.inr (by simp [htemporary.free]))
  rw [node?_put fs _ (List.cons_ne_nil _ _), if_neg (by simp)] at haround
  exact haround

theorem IsTree.append {fs after : FileSystem} (h : fs.IsTree) {p : Path} {content : Bytes}
    (hwritten : fs.append p content = .ok after) : after.IsTree := by
  rcases append_eq_ok hwritten with rfl | ⟨place, before, mode, hplace, hnode, rfl⟩
  · exact h
  · obtain ⟨name, folder, rfl, hfolder⟩ := folder_of_locateEntry hplace
    exact h.put hfolder (.inr (by simp [hnode]))

theorem IsTree.rename {fs after : FileSystem} (h : fs.IsTree) {source target : Path}
    (hmoved : fs.rename source target = .ok after) : after.IsTree := by
  obtain ⟨leaving, arriving, node, hleaving, harriving, hnode, hnot, hold, rfl⟩ :=
    rename_eq_ok hmoved
  have hnotFolder : fs.node? leaving ≠ some .folder := by
    rw [hnode]
    simpa using hnot
  have hne : leaving ≠ [] := by
    rintro rfl
    exact hnotFolder rfl
  obtain ⟨name, folder, rfl, hfolder⟩ := folder_of_locateEntry harriving
  -- nothing stands in what is no folder, so it may go, and come back elsewhere
  refine (h.erase hne hnotFolder).put ?_ (.inr ?_)
  · rw [node?_erase fs hne, if_neg, hfolder]
    rintro rfl
    exact hnotFolder hfolder
  · rw [node?_erase fs hne]
    split
    · simp
    · exact hold

theorem IsTree.remove {fs after : FileSystem} (h : fs.IsTree) {p : Path}
    (hremoved : fs.remove p = .ok after) : after.IsTree := by
  obtain ⟨place, node, -, hnode, hnot, rfl⟩ := remove_eq_ok hremoved
  have hnotFolder : fs.node? place ≠ some .folder := by
    rw [hnode]
    simpa using hnot
  refine h.erase ?_ hnotFolder
  rintro rfl
  exact hnotFolder rfl

end Keyring.FileSystem
