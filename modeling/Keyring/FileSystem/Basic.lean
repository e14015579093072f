/-
  Keyring.FileSystem.Basic
  ────────────────────────────────
  **A TREE OF FILES.**

  What a program can find out about a file system and change in it: which
  names lead to folders, files and symbolic links, and what the files
  hold.  A place in the tree is the list of names that leads to it,
  innermost first, so that the folder around a place is its tail and the
  root is the empty list.

      node? l   — what stands at a place
      put l n   — the tree with `n` at a place
      erase l   — the tree with nothing at a place
      drop      — the tree with nothing at all places of some kind

  A working folder may be dropped too.  One can still be in it then, but it
  stands at a place of its own (`Location.vanished`), to which no name
  leads, whatever takes its old name later.  Of the folders above it only
  the next one is remembered, and only by its place: once that one is
  removed too, `..` leads nowhere, where a system that keeps the removed
  folders themselves would still go up.

  Permissions are kept with a file and never consulted.

  The laws of `put` and `erase` (`node?_put`, `node?_erase`) are all that
  replacing a file needs of the tree.
-/
import Keyring.FileSystem.Error
import Keyring.Path

namespace Keyring

/-! ## §1. Places and what stands there. -/

/-- The names that lead from the root to a place, innermost first. -/
abbrev Location := List Bytes

/-- The path of a place, from the root. -/
def Location.path (place : Location) : Path :=
  ⟨slash :: joinWithSlashes place.reverse⟩

/-- The place of a removed folder.  No name leads there, as no name is empty; the folder around
it is still the one it was removed from. -/
def Location.vanished (place : Location) : Location := [] :: place.tail

/-- What may stand at a place. -/
inductive Node where
  | folder
  /-- A folder that is removed and still worked in: it can be left, and holds nothing. -/
  | removed
  /-- A regular file with its contents and its permissions. -/
  | file (content : Bytes) (mode : Nat)
  /-- A symbolic link. -/
  | link (target : Path)
  /-- Something that can be opened and holds nothing. -/
  | device
  deriving DecidableEq, Repr

/-- Files, folders and links, and the folder from which relative paths count. -/
structure FileSystem where
  /-- What stands where; the first pair of a place counts. -/
  nodes : List (Location × Node)
  workingFolder : Location

namespace FileSystem

/-! ## §2. The tree. -/

/-- What stands at a place.  The root is a folder always. -/
def node? (fs : FileSystem) : Location → Option Node
  | [] => some .folder
  | place => fs.nodes.lookup place

/-- The tree with a node at a place. -/
def put (fs : FileSystem) (place : Location) (node : Node) : FileSystem :=
  { fs with nodes := (place, node) :: fs.nodes.filter fun n => n.1 != place }

/-- The tree with nothing at a place. -/
def erase (fs : FileSystem) (place : Location) : FileSystem :=
  { fs with nodes := fs.nodes.filter fun n => n.1 != place }

/-- The tree with nothing at all these places.  A working folder among them vanishes. -/
def drop (fs : FileSystem) (isGone : Location → Bool) : FileSystem :=
  let kept := fs.nodes.filter fun n => !isGone n.1
  if isGone fs.workingFolder then
    let left := fs.workingFolder.vanished
    { nodes := (left, .removed) :: kept, workingFolder := left }
  else { fs with nodes := kept }

/-- The tree with nothing in a folder. -/
def clear (fs : FileSystem) (place : Location) : FileSystem :=
  fs.drop fun other => place.isSuffixOf other && other != place

/-- The names in a folder, ascending. -/
def namesIn (fs : FileSystem) (place : Location) : List Bytes :=
  let names := fs.nodes.filterMap fun n =>
    match n.1 with
    | [] => none
    | name :: folder => if folder = place && name != [] then some name else none
  names.eraseDups.mergeSort

/-! ## §3. Laws of the tree. -/

theorem lookup_filter_ne (nodes : List (Location × Node)) (place other : Location) :
    (nodes.filter fun n => n.1 != place).lookup other
      = if other = place then none else nodes.lookup other := by
  induction nodes with
  | nil => simp
  | cons n nodes ih =>
    obtain ⟨l, node⟩ := n
    by_cases ho : other = l
    · subst ho
      by_cases hl : other = place
      · rw [List.filter_cons_of_neg (by simpa using hl), ih, if_pos hl, if_pos hl]
      · rw [List.filter_cons_of_pos (by simpa using hl)]
        simp [hl]
    · have hne : (other == l) = false := by simpa using ho
      by_cases hl : l = place
      · rw [List.filter_cons_of_neg (by simpa using hl), ih]
        simp only [List.lookup_cons, hne]
      · rw [List.filter_cons_of_pos (by simpa using hl)]
        simp only [List.lookup_cons, hne, ih]

/-- What stands where after `put`. -/
theorem node?_put (fs : FileSystem) (node : Node) {place : Location} (h : place ≠ [])
    (other : Location) :
    (fs.put place node).node? other = if other = place then some node else fs.node? other := by
  cases other with
  | nil => simp [node?, Ne.symm h]
  | cons name folder =>
    simp only [node?, put, List.lookup_cons, lookup_filter_ne]
    by_cases ho : name :: folder = place
    · simp [ho]
    · have : (name :: folder == place) = false := by simpa using ho
      simp [ho, this]

/-- What stands where after `erase`. -/
theorem node?_erase (fs : FileSystem) {place : Location} (h : place ≠ []) (other : Location) :
    (fs.erase place).node? other = if other = place then none else fs.node? other := by
  cases other with
  | nil => simp [node?, Ne.symm h]
  | cons name folder => simp only [node?, erase, lookup_filter_ne]

end FileSystem

end Keyring
