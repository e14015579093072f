/-
  Keyring.Path
  ────────────────────────────────
  **PATHS AS TEXT.**

  A path is a sequence of bytes, cut into segments at its slashes.  What
  stands here looks at the text alone and asks no file system:

      segments     — all pieces between slashes, empty ones included
      names        — the pieces that name something: neither empty nor `.`
      push, join   — one piece further down
      parent?      — the path without its last name
      ancestors    — the path, its parent, the parent of that, …
      absolute     — the path from the root, with a working folder in front

  A segment `..` is a name like any other here: only the file system can
  tell where it leads.
-/
import Keyring.Text.Bytes

namespace Keyring

/-! ## §1. Paths and their segments. -/

/-- The byte that separates the segments of a path. -/
def slash : UInt8 := 0x2F

/-- The byte of a full stop. -/
def fullStop : UInt8 := 0x2E

/-- The segment that stays where it is. -/
def dot : Bytes := [fullStop]

/-- The segment that goes up. -/
def dotDot : Bytes := [fullStop, fullStop]

/-- Cuts bytes at every slash; there is always one piece more than there are slashes. -/
def cutAtSlashes : Bytes → List Bytes
  | [] => [[]]
  | byte :: rest =>
    if byte = slash then [] :: cutAtSlashes rest
    else
      match cutAtSlashes rest with
      | [] => [[byte]]
      | piece :: pieces => (byte :: piece) :: pieces

/-- Puts slashes between pieces. -/
def joinWithSlashes (pieces : List Bytes) : Bytes :=
  List.intercalate [slash] pieces

/-- A path as the operating system takes it: bytes, in practice mostly UTF-8. -/
structure Path where
  /-- The path as written. -/
  bytes : Bytes
  deriving DecidableEq, Repr, Inhabited

namespace Path

/-- The path written as this text. -/
def ofString (s : String) : Path := ⟨Bytes.ofString s⟩

/-- The path as it is shown in messages. -/
def display (p : Path) : String := Bytes.display p.bytes

/-- The path as text, if it is one. -/
def toString? (p : Path) : Option String := Bytes.toString? p.bytes

/-- No byte at all. -/
def isEmpty (p : Path) : Bool := p.bytes.isEmpty

/-- Starts at the root. -/
def isAbsolute (p : Path) : Bool := p.bytes.head? == some slash

/-- Ends in a slash. -/
def endsInSlash (p : Path) : Bool := p.bytes.getLast? == some slash

/-- The pieces between slashes; a path that starts with a slash has an empty first piece. -/
def segments (p : Path) : List Bytes := cutAtSlashes p.bytes

/-- A segment that names nothing: empty, or the folder itself. -/
def isIdle (segment : Bytes) : Bool := segment == [] || segment == dot

/-- The segments that name something, `..` included. -/
def names (p : Path) : List Bytes :=
  p.segments.filter fun segment => !isIdle segment

/-! ## §2. Down and up. -/

/-- Adds a segment; a slash comes between unless there is one, or nothing, in front. -/
def push (p : Path) (segment : Bytes) : Path :=
  if p.isEmpty || p.endsInSlash then ⟨p.bytes ++ segment⟩
  else ⟨p.bytes ++ slash :: segment⟩

/-- The path of an entry of a folder. -/
def join (folder : Path) (name : String) : Path :=
  folder.push (Bytes.ofString name)

/-- Drops idle segments at the end. -/
def dropIdle (segments : List Bytes) : List Bytes :=
  (segments.reverse.dropWhile isIdle).reverse

/-- The path without its last name and without what is idle around it.  There is none for the
root and for the empty path; a lone name, and `.`, have the empty path as their parent. -/
def parent? (p : Path) : Option Path :=
  match p.segments with
  | [] :: (body@(_ :: _)) =>
    (above body).map fun kept => ⟨slash :: joinWithSlashes kept⟩
  | first :: body =>
    if first = dot then
      match above body with
      | none => some ⟨[]⟩
      | some kept => some ⟨joinWithSlashes (dot :: kept)⟩
    else
      (above (first :: body)).map fun kept => ⟨joinWithSlashes kept⟩
  | [] => none
where
  /-- The segments above the last one that names something. -/
  above (body : List Bytes) : Option (List Bytes) :=
    match dropIdle body with
    | [] => none
    | kept@(_ :: _) => some (dropIdle kept.dropLast)

/-- The path, its parent, and so on up; the empty path is left out. -/
def ancestors (p : Path) : List Path :=
  go p.bytes.length p
where
  /-- Every parent is shorter, so the length of the path bounds the number of steps. -/
  go : Nat → Path → List Path
    | 0, _ => []
    | steps + 1, p =>
      if p.isEmpty then []
      else
        match p.parent? with
        | none => [p]
        | some up => p :: go steps up

/-! ## §3. From the root. -/

/-- Begins with two slashes and not with three: such a beginning is kept. -/
def hasDoubleRoot (p : Path) : Bool :=
  match p.bytes with
  | a :: b :: c :: _ => a == slash && b == slash && c != slash
  | [a, b] => a == slash && b == slash
  | _ => false

/-- Where the names of the path count from, given the working folder. -/
def start (p workingFolder : Path) : Path :=
  if p.hasDoubleRoot then ⟨[slash, slash]⟩
  else if p.isAbsolute then ⟨[slash]⟩
  else workingFolder

/-- The path from the root: its names after `start`, with single slashes between, and with a
slash at the end where the path has one.  The empty path stands for nothing and has none. -/
def absolute? (p workingFolder : Path) : Option Path :=
  if p.isEmpty then none
  else
    let named := p.names.foldl push (p.start workingFolder)
    some (if p.endsInSlash then named.push [] else named)

end Path

end Keyring
