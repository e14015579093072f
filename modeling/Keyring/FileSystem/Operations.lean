/-
  Keyring.FileSystem.Operations
  ────────────────────────────────
  **WHAT CAN BE DONE TO FILES.**

  Each operation takes the file system and a path and gives an answer, a
  new file system, or the cause of its failure.  A failed operation
  changes nothing; only `removeAll` may fail after a part of its work.

      read, inspect, isFolder, workingPath — look
      makeFolder                           — one new folder
      createTemporary, append, rename, remove
                                           — how a file is replaced in one
                                             step
      write, makeLink, removeFolder, removeAll, nodeNamed, list
                                           — the rest of a file system, for
                                             whoever sets one up

  Permissions are set and can be looked at, but no operation consults them:
  what is described here is a file system as it is to someone who may read
  and write everything, and nothing is refused for want of a permission.
-/
import Keyring.FileSystem.Walk

namespace Keyring.FileSystem

/-! ## §1. Looking. -/

/-- What a path turns out to lead to. -/
inductive Kind where
  | file
  | folder
  | other
  deriving DecidableEq, Repr

/-- The kind of a node at which no link is left to follow. -/
def Node.kind : Node → Kind
  | .folder | .removed => .folder
  | .file _ _ => .file
  | _ => .other

/-- The node that a path leads to. -/
def nodeAt (fs : FileSystem) (p : Path) : Except FileError Node := do
  let place ← fs.locate p
  match fs.node? place with
  | some node => .ok node
  | none => .error .notFound

/-- Opens what a path leads to and says what it is.  Its permissions do not matter. -/
def inspect (fs : FileSystem) (p : Path) : Except FileError Kind :=
  (fs.nodeAt p).map Node.kind

/-- The contents of a file.  Its permissions do not matter. -/
def read (fs : FileSystem) (p : Path) : Except FileError Bytes := do
  match ← fs.nodeAt p with
  | .folder | .removed => .error .isFolder
  | .file content _ => .ok content
  | _ => .ok []

/-- The path leads to a folder. -/
def isFolder (fs : FileSystem) (p : Path) : Bool :=
  match fs.nodeAt p with
  | .ok .folder | .ok .removed => true
  | _ => false

/-- The path of the working folder, as long as it is there. -/
def workingPath (fs : FileSystem) : Except FileError Path :=
  match fs.node? fs.workingFolder with
  | some .folder => .ok fs.workingFolder.path
  | _ => .error .notFound

/-! ## §2. Making, renaming, removing. -/

/-- Makes a folder.  Nothing may have its name yet, not even a link that leads nowhere. -/
def makeFolder (fs : FileSystem) (p : Path) : Except FileError FileSystem := do
  let e ← fs.locateEntry p .exists
  match fs.node? e.place with
  | some _ => .error .exists
  | none => .ok (fs.put e.place .folder)

/-- The permissions of a temporary file: its owner alone may read and write. -/
def ownerOnly : Nat := 0o600

/-- A name for a temporary file. -/
def temporaryName (n : Nat) : Bytes :=
  let digits := Nat.toDigits 10 n
  Bytes.ofString (".tmp" ++ String.ofList (List.replicate (6 - digits.length) '0' ++ digits))

/-- The first of the temporary names that is free in a folder. -/
def freeName? (fs : FileSystem) (folder : Location) : Option Bytes :=
  ((List.range (fs.nodes.length + 1)).map temporaryName).find? fun name =>
    (fs.node? (name :: folder)).isNone

/-- Creates an empty file under a free name in a folder; gives its path from the root. -/
def createTemporary (fs : FileSystem) (folder : Path) : Except FileError (Path × FileSystem) := do
  let around ← if folder.isAbsolute then .ok folder
    else (fs.workingPath).map fun working => working.push folder.bytes
  let place ← fs.locate around
  fs.requireFolder place
  match fs.freeName? place with
  | none => .error .exists
  | some name =>
    let path := around.push name
    -- the folder may be within the limit for paths and the file in it not
    checkPath path
    let own ← fs.placeIn place name
    .ok (path, fs.put own (.file [] ownerOnly))

/-- Writes at the end of a file.  A link that the path names is not followed. -/
def append (fs : FileSystem) (p : Path) (content : Bytes) : Except FileError FileSystem := do
  let e ← fs.locateEntry p .isFolder
  match fs.node? e.place with
  | none => .error .notFound
  | some .folder | some .removed => .error .isFolder
  | some (.link _) => .error .tooManyLinks
  | some (.file before mode) =>
    if e.hasSlash then .error .notFolder
    else .ok (fs.put e.place (.file (before ++ content) mode))
  | some .device => if e.hasSlash then .error .notFolder else .ok fs

/-- A target that the system cannot read as a path is refused as an argument. -/
def checkTarget (p : Path) : Except FileError Unit :=
  if p.bytes.contains 0 then .error .invalidArgument else .ok ()

/-- Moves a file from one name to another and so replaces, in one step, a file or link of that
other name.  Links are not followed; a folder is neither moved nor replaced. -/
def rename (fs : FileSystem) (source target : Path) : Except FileError FileSystem := do
  checkTarget target
  let leaving ← fs.locateEntry source .busy
  let arriving ← fs.locateEntry target .busy
  match fs.node? leaving.place with
  | none => .error .notFound
  | some .folder => .error .isFolder
  | some node =>
    -- a slash at the end asks for a folder, and this is none
    if leaving.hasSlash || arriving.hasSlash then .error .notFolder
    else
      match fs.node? arriving.place with
      | some .folder => .error .isFolder
      | _ => .ok ((fs.erase leaving.place).put arriving.place node)

/-- Removes a file or link. -/
def remove (fs : FileSystem) (p : Path) : Except FileError FileSystem := do
  let e ← fs.locateEntry p .busy
  match fs.node? e.place with
  | none => .error .notFound
  | some .folder => .error .isFolder
  | some _ => if e.hasSlash then .error .notFolder else .ok (fs.erase e.place)

/-! ## §3. Setting up. -/

/-- The permissions of a file that is written without more ado. -/
def ordinary : Nat := 0o644

/-- The place at which a file is written: links are followed even where they lead to nothing.
Each step but the last follows a link, so there is no need for more steps than links. -/
def placeToWrite (fs : FileSystem) : Nat → Nat → Location → Path → Except FileError Location
  | 0, _, _, _ => .error .tooManyLinks
  | steps + 1, links, origin, p => do
    checkPath p
    match ending? p with
    | none => .error .isFolder
    | some e =>
      let arrival ← fs.walk links (startOf p origin) e.before
      fs.requireFolder arrival.place
      if e.last = dot || e.last = dotDot || e.hasSlash then .error .isFolder
      else
        let place ← fs.placeIn arrival.place e.last
        match fs.node? place, arrival.linksLeft with
        | some (.link _), 0 => .error .tooManyLinks
        | some (.link target), left + 1 => fs.placeToWrite steps left arrival.place target
        | _, _ => .ok place

/-- Writes a file; one that exists keeps its permissions. -/
def write (fs : FileSystem) (p : Path) (content : Bytes) : Except FileError FileSystem := do
  let place ← fs.placeToWrite (mostLinks + 1) mostLinks fs.workingFolder p
  match fs.node? place with
  | none => .ok (fs.put place (.file content ordinary))
  | some (.file _ mode) => .ok (fs.put place (.file content mode))
  | some .folder | some .removed => .error .isFolder
  | some _ => .ok fs

/-- Makes a symbolic link. -/
def makeLink (fs : FileSystem) (p target : Path) : Except FileError FileSystem := do
  checkPath target
  let e ← fs.locateEntry p .exists
  match fs.node? e.place with
  | some _ => .error .exists
  | none => if e.hasSlash then .error .notFound else .ok (fs.put e.place (.link target))

/-- The node that a path names; a link at its end counts itself, unless a slash follows. -/
def nodeNamed (fs : FileSystem) (p : Path) : Except FileError Node :=
  match ending? p with
  | none => fs.nodeAt p
  | some e =>
    if e.hasSlash || e.last = dot || e.last = dotDot then fs.nodeAt p
    else do
      let e ← fs.locateEntry p .notFound
      match fs.node? e.place with
      | some node => .ok node
      | none => .error .notFound

/-- Why a path that ends in no name is none of a folder to remove. -/
def unremovable (p : Path) : FileError :=
  match ending? p with
  | none => .busy
  | some e => if e.last = dot then .invalidArgument else .notEmpty

/-- Removes an empty folder. -/
def removeFolder (fs : FileSystem) (p : Path) : Except FileError FileSystem := do
  let e ← fs.locateEntry p (unremovable p)
  match fs.node? e.place with
  | none => .error .notFound
  | some .folder =>
    if (fs.namesIn e.place).isEmpty then .ok (fs.drop fun other => other = e.place)
    else .error .notEmpty
  | some _ => .error .notFolder

/-- Removes what is in the folder that a path leads to, and then the folder that it names.  Only
the second may fail, but not because the folder went along with the first. -/
def removeFolderAndContents (fs : FileSystem) (p : Path) (place : Location) :
    Except FileError Unit × FileSystem :=
  let emptied := fs.clear place
  match emptied.removeFolder p with
  | .ok after => (.ok (), after)
  | .error .notFound => (.ok (), emptied)
  | .error e => (.error e, emptied)

/-- Removes a file or link, or a folder with all that is in it. -/
def removeAll (fs : FileSystem) (p : Path) : Except FileError Unit × FileSystem :=
  match fs.nodeNamed p, fs.locate p with
  | .error e, _ => (.error e, fs)
  | .ok .folder, .ok place | .ok .removed, .ok place => fs.removeFolderAndContents p place
  | .ok _, _ =>
    match fs.remove p with
    | .ok after => (.ok (), after)
    | .error e => (.error e, fs)

/-- The names in a folder, ascending. -/
def list (fs : FileSystem) (p : Path) : Except FileError (List Bytes) := do
  match ← fs.nodeAt p with
  | .folder | .removed => return fs.namesIn (← fs.locate p)
  | _ => .error .notFolder

end Keyring.FileSystem
