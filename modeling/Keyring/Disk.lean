/-
  Keyring.Disk
  ────────────────────────────────
  **WHAT THE PROGRAM ASKS OF A DISK.**

  A few file operations and the working folder are all that the program
  needs from its surroundings.  Everything above this module is written
  once for any monad that has them.

      MonadDisk      — the operations
      DiskM          — the monad of a `FileSystem` held as a value
      makeFolders    — a folder with the folders above it
-/
import Keyring.FileSystem.Operations

namespace Keyring

open FileSystem (Kind)

/-! ## §1. The operations. -/

/-- A monad in which files can be looked at and replaced. -/
class MonadDisk (m : Type → Type) where
  /-- The contents of a file. -/
  read : Path → m (Except FileError Bytes)
  /-- Opens what a path leads to and says what it is. -/
  inspect : Path → m (Except FileError Kind)
  /-- The path leads to a folder. -/
  isFolder : Path → m Bool
  /-- Makes one folder. -/
  makeFolder : Path → m (Except FileError Unit)
  /-- Creates an empty file in a folder under a name that was free, which nobody but its owner
  may read or write; gives its path. -/
  createTemporary : Path → m (Except FileError Path)
  /-- Writes at the end of a file. -/
  append : Path → Bytes → m (Except FileError Unit)
  /-- Waits until all that was written to a file is on the disk. -/
  sync : Path → m (Except FileError Unit)
  /-- Moves a file over another name in one step. -/
  rename : Path → Path → m (Except FileError Unit)
  /-- Removes a file. -/
  remove : Path → m (Except FileError Unit)
  /-- The path of the working folder. -/
  workingFolder : m (Except FileError Path)

/-! ## §2. A file system as a value. -/

/-- Computations on a file system that is a value. -/
abbrev DiskM := StateM FileSystem

namespace DiskM

/-- An operation that changes nothing. -/
def look (f : FileSystem → α) : DiskM α := fun fs => (f fs, fs)

/-- An operation that changes nothing if it fails. -/
def change (f : FileSystem → Except FileError (α × FileSystem)) : DiskM (Except FileError α) :=
  fun fs =>
    match f fs with
    | .ok (value, fs) => (.ok value, fs)
    | .error e => (.error e, fs)

/-- An operation whose only answer is that it was done. -/
def alter (f : FileSystem → Except FileError FileSystem) : DiskM (Except FileError Unit) :=
  change fun fs => (f fs).map fun fs => ((), fs)

end DiskM

instance : MonadDisk DiskM where
  read p := DiskM.look fun fs => fs.read p
  inspect p := DiskM.look fun fs => fs.inspect p
  isFolder p := DiskM.look fun fs => fs.isFolder p
  makeFolder p := DiskM.alter fun fs => fs.makeFolder p
  createTemporary folder := DiskM.change fun fs => fs.createTemporary folder
  append p content := DiskM.alter fun fs => fs.append p content
  -- what is written to a value is there at once: all that can fail is to find the file
  sync p := DiskM.look fun fs => (fs.append p []).map fun _ => ()
  rename source target := DiskM.alter fun fs => fs.rename source target
  remove p := DiskM.alter fun fs => fs.remove p
  workingFolder := DiskM.look FileSystem.workingPath

/-! ## §3. Folders above folders. -/

/-- Makes the first of these folders; where something above it is missing, the others come
first, from the last one down.  One that is there already will do. -/
def makeFolders [Monad m] [MonadDisk m] : List Path → m (Except FileError Unit)
  | [] => return .ok ()
  | p :: above => do
    match ← MonadDisk.makeFolder p with
    | .ok () => return .ok ()
    | .error .notFound =>
      match ← makeFolders above with
      | .error e => return .error e
      | .ok () =>
        match ← MonadDisk.makeFolder p with
        | .ok () => return .ok ()
        | .error e => orPresent p e
    | .error e => orPresent p e
where
  /-- A folder that could not be made because it is there is as good as made. -/
  orPresent (p : Path) (e : FileError) : m (Except FileError Unit) := do
    if ← MonadDisk.isFolder p then return .ok () else return .error e

end Keyring
