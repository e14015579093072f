/-
  Keyring.FileSystem.Walk
  ────────────────────────────────
  **WHERE A PATH LEADS.**

  A path is walked segment by segment, from the root or from the working
  folder.  At each segment the place reached must be a folder; `..` goes
  up, a name goes down, and a symbolic link puts the segments of its
  target in place of its name.

      locate   — the place a path leads to, all links followed
      locateEntry — the folder and the name that a path ends in, a link
                 there not followed; the name need not exist
-/
import Keyring.FileSystem.Basic

namespace Keyring.FileSystem

/-! ## §1. Limits. -/

/-- The most bytes a name may have. -/
def longestName : Nat := 255

/-- The most bytes a path may have. -/
def longestPath : Nat := 4095

/-- The most links followed on one walk. -/
def mostLinks : Nat := 40

/-- A path that can be handed to the system at all. -/
def checkPath (p : Path) : Except FileError Unit :=
  if p.bytes.contains 0 then .error .zeroByte
  else if p.isEmpty then .error .notFound
  else if longestPath < p.bytes.length then .error .nameTooLong
  else .ok ()

/-! ## §2. Walking. -/

/-- Where the segments of a path count from, seen from a folder. -/
def startOf (p : Path) (folder : Location) : Location :=
  if p.isAbsolute then [] else folder

/-- The place must be a folder, if only a removed one. -/
def requireFolder (fs : FileSystem) (place : Location) : Except FileError Unit :=
  match fs.node? place with
  | some .folder | some .removed => .ok ()
  | some _ => .error .notFolder
  | none => .error .notFound

/-- The place of a name in a folder, whether or not something stands there.  A removed folder has
no such places. -/
def placeIn (fs : FileSystem) (folder : Location) (name : Bytes) : Except FileError Location :=
  if fs.node? folder = some .removed then .error .notFound
  else if longestName < name.length then .error .nameTooLong
  else .ok (name :: folder)

/-- The end of a walk: the place reached, and how many more links might have been followed. -/
structure Arrival where
  place : Location
  linksLeft : Nat
  deriving DecidableEq, Repr

/-- Goes along segments as far as the first link, and hands what is left to `follow`. -/
def walkUntilLink (fs : FileSystem) (linksLeft : Nat)
    (follow : Location → List Bytes → Except FileError Arrival) :
    Location → List Bytes → Except FileError Arrival
  | place, [] => .ok ⟨place, linksLeft⟩
  | place, segment :: rest =>
    match fs.requireFolder place with
    | .error e => .error e
    | .ok () =>
      if Path.isIdle segment then walkUntilLink fs linksLeft follow place rest
      else if segment = dotDot then walkUntilLink fs linksLeft follow place.tail rest
      else
        match fs.placeIn place segment with
        | .error e => .error e
        | .ok inner =>
          match fs.node? inner with
          | none => .error .notFound
          -- the link's own segments come before what was left of the path
          | some (.link target) => follow (startOf target place) (target.segments ++ rest)
          | some _ => walkUntilLink fs linksLeft follow inner rest

/-- Goes along segments, following at most this many links. -/
def walk (fs : FileSystem) : Nat → Location → List Bytes → Except FileError Arrival
  | 0 => fs.walkUntilLink 0 fun _ _ => .error .tooManyLinks
  | links + 1 => fs.walkUntilLink (links + 1) (fs.walk links)

/-- The place that a path leads to. -/
def locate (fs : FileSystem) (p : Path) : Except FileError Location := do
  checkPath p
  let arrival ← fs.walk mostLinks (startOf p fs.workingFolder) p.segments
  return arrival.place

/-! ## §3. The last name of a path. -/

/-- The end of a path: the segments before its last one, that one, and whether slashes follow. -/
structure Ending where
  before : List Bytes
  last : Bytes
  hasSlash : Bool
  deriving DecidableEq, Repr

/-- Splits off the last segment that is not empty; a path of slashes alone has none. -/
def ending? (p : Path) : Option Ending :=
  match p.segments.reverse.dropWhile (· == []) with
  | [] => none
  | last :: before => some ⟨before.reverse, last, p.endsInSlash⟩

/-- The place of a name, and whether slashes follow the name. -/
structure EntryPlace where
  place : Location
  hasSlash : Bool
  deriving DecidableEq, Repr

/-- The entry that a path ends in.  Where it ends in no name, but in `.`, in `..` or at the
root, it fails with `noName`, after the folders before have been walked. -/
def locateEntry (fs : FileSystem) (p : Path) (noName : FileError) :
    Except FileError EntryPlace := do
  checkPath p
  match ending? p with
  | none => .error noName
  | some e =>
    let arrival ← fs.walk mostLinks (startOf p fs.workingFolder) e.before
    fs.requireFolder arrival.place
    if e.last = dot || e.last = dotDot then .error noName
    else
      let place ← fs.placeIn arrival.place e.last
      .ok ⟨place, e.hasSlash⟩

end Keyring.FileSystem
