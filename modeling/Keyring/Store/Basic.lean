/-
  Keyring.Store.Basic
  ────────────────────────────────
  **THE REGISTRY ON DISK.**

  A registry is kept as one document.  `load` reads it, and takes a
  document that is not there for the empty registry.  `save` writes a new
  document beside the old one and moves it over the old name in one step,
  so that a reader finds either the old or the new one, whole.

      load  — read, parse, check the rules
      save  — check the rules, make the folder, create a temporary file,
              write it, move it

  A registry that breaks a rule is neither loaded nor saved, and nothing is
  written before the rules have been checked.  Whatever fails once the
  temporary file is there, the file is removed again.
-/
import Keyring.Disk
import Keyring.Document.Print
import Keyring.Document.Schema
import Keyring.Registry.Validation

namespace Keyring

/-- Where the document of a registry is kept. -/
structure Store where
  /-- The path of the document. -/
  path : Path
  deriving DecidableEq, Repr

namespace Store

/-! ## §1. Places. -/

/-- The name of the document in a configuration folder. -/
def documentName : String := "signingkeys.json"

/-- The store in a configuration folder. -/
def inFolder (folder : Path) : Store := ⟨folder.join documentName⟩

/-- The folder of the document, by the text of its path. -/
def folder (s : Store) : Path :=
  match s.path.parent? with
  | some folder => if folder.isEmpty then ⟨dot⟩ else folder
  | none => ⟨dot⟩

/-! ## §2. Loading and saving. -/

/-- The registry that the bytes of a document describe, if it keeps the rules. -/
def decode (s : Store) (content : Bytes) : Except KeyError Registry :=
  match content.toString? with
  | none => .error (.io .notText)
  | some text =>
    match Document.parse text with
    | .error cause => .error (.malformedDocument s.path cause)
    | .ok r => r.validated

/-- The bytes of the document of a registry. -/
def encode (r : Registry) : Bytes :=
  Bytes.ofString (Document.print r ++ "\n")

variable {m : Type → Type} [Monad m] [MonadDisk m]

/-- A file operation of the store. -/
def io (operation : m (Except FileError α)) : ExceptT KeyError m α :=
  ExceptT.mk do
    match ← operation with
    | .ok value => return .ok value
    | .error cause => return .error (.io cause)

/-- Reads the registry.  Without a document it is empty. -/
def load (s : Store) : ExceptT KeyError m Registry :=
  ExceptT.mk do
    match ← MonadDisk.read s.path with
    | .error .notFound => return .ok Registry.empty
    | .error cause => return .error (.io cause)
    | .ok content => return s.decode content

/-- Works with a file that is removed if the work fails. -/
def orRemove (p : Path) (work : ExceptT KeyError m α) : ExceptT KeyError m α :=
  ExceptT.mk do
    match ← work.run with
    | .ok value => return .ok value
    | .error e =>
      -- the work is what has failed, whatever becomes of the file
      let _ ← MonadDisk.remove p
      return .error e

/-- The parts in which a document is written. -/
def documentParts (r : Registry) : List Bytes :=
  [Bytes.ofString (Document.print r), Bytes.ofString "\n"]

/-- Writes the document into an empty file and moves that over the old document. -/
def replace (s : Store) (r : Registry) (temporary : Path) : ExceptT KeyError m Unit := do
  forM (documentParts r) fun part => io (MonadDisk.append temporary part)
  io (MonadDisk.sync temporary)
  io (MonadDisk.rename temporary s.path)

/-- Writes the registry in the place of the document. -/
def save (s : Store) (r : Registry) : ExceptT KeyError m Unit := do
  let _ ← r.validated
  -- from here on only a file operation can fail
  io (makeFolders s.folder.ancestors)
  let temporary ← io (MonadDisk.createTemporary s.folder)
  orRemove temporary (s.replace r temporary)

end Store

end Keyring
