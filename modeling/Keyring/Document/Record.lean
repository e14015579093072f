/-
  Keyring.Document.Record
  ────────────────────────────────
  **OBJECTS WITH NAMED FIELDS.**

  A record is written as an object: each field at most once, in any order,
  members with other names ignored.  An array of the fields in declared
  order is taken as well; it may stop before fields that need not be
  given.

  While a record is read, what has been given so far is kept in a draft;
  `Record.complete` turns the draft into the record or names the first
  field that is missing.
-/
import Keyring.Document.Ignored

namespace Keyring.Document

/-! ## §1. Values of the wrong type. -/

namespace Reader

/-- A number in the place of something else. -/
def foundNumber : Reader Found := do
  let n ← numeral .endInValue
  match n.value with
  | .integer value => return .integer value
  | .floating value => return .floating (Decimal.floatText value)
  | .tooLarge unread => fun rest => .fail .numberOutOfRange (size rest + unread)

/-- Names the value at hand.  Words, numbers and strings are read, of arrays and objects not
even the bracket. -/
def found : Reader Found
  | [] => .fail .endInValue 0
  | 'n' :: rest => (do word ['u', 'l', 'l']; return .null : Reader Found) rest
  | 't' :: rest => (do word ['r', 'u', 'e']; return .boolean true : Reader Found) rest
  | 'f' :: rest => (do word ['a', 'l', 's', 'e']; return .boolean false : Reader Found) rest
  | '"' :: rest => (do return .string (← stringBody) : Reader Found) rest
  | '[' :: rest => .ok .sequence ('[' :: rest)
  | '\x7b' :: rest => .ok .map ('\x7b' :: rest)
  | c :: rest =>
    if c = '-' || c.isDigit then foundNumber (c :: rest) else failPast .expectedValue (c :: rest)

/-- Refuses the value at hand where another type is expected. -/
def wrongType (expected : String) : Reader α := do
  let found ← found
  failHere (.mismatch (.wrongType found expected))

/-! ## §2. Fields. -/

/-- Reads a string. -/
def string : Reader String := fun text =>
  match dropSpace text with
  | '"' :: rest => stringBody rest
  | rest => wrongType "a string" rest

/-- Reads a value that may be `null`. -/
def nullable (value : Reader α) : Reader (Option α) := fun text =>
  match dropSpace text with
  | 'n' :: rest => (do word ['u', 'l', 'l']; return none : Reader (Option α)) rest
  | rest => (do return some (← value) : Reader (Option α)) rest

/-- Reads the name of a member. -/
def memberName : Reader String
  | '"' :: rest => stringBody rest
  | text => failPast .nameNotString text

/-- Reads members up to the closer, each by `member` from behind its name, as many as the bound
is long.  Each takes a character at least, so the text itself is a bound. -/
def membersUpTo (member : σ → String → Reader σ) : List Char → Bool → σ → Reader σ
  | [], _, _ => failPast .endInObject
  | _ :: bound, isFirst, state => do
    if ← another .curly isFirst then
      let name ← memberName
      let state ← member state name
      membersUpTo member bound false state
    else
      return state

/-- Reads the members of an object. -/
def members (member : σ → String → Reader σ) (state : σ) : Reader σ := fun text =>
  membersUpTo member text true state text

end Reader

/-! ## §3. Records. -/

/-- A field of a record whose draft is `σ`. -/
structure Field (σ : Type) where
  /-- The name of the member that gives the field. -/
  name : String
  /-- The field has been given. -/
  isGiven : σ → Bool
  /-- Reads the value into the draft. -/
  read : σ → Reader σ

/-- A kind of object with named fields; fields that must be given come first. -/
structure Record (σ α : Type) where
  /-- What a message calls it. -/
  expected : String
  /-- The draft to which nothing has been given. -/
  draft : σ
  /-- The fields in declared order. -/
  fields : List (Field σ)
  /-- The record of a draft, or the first field that is missing from it. -/
  complete : σ → Except String α

namespace Record

open Reader

/-- Reads a member from behind its name: a field once, anything else not at all. -/
def member (r : Record σ α) (state : σ) (name : String) : Reader σ :=
  match r.fields.find? fun field => field.name == name with
  | none => do
    colon
    ignored
    return state
  | some field =>
    if field.isGiven state then reject (.duplicateField name)
    else do
      colon
      field.read state

/-- Reads the contents of an object. -/
def ofMembers (r : Record σ α) : Reader α := do
  let state ← members r.member r.draft
  match r.complete state with
  | .ok value => return value
  | .error name => reject (.missingField name)

/-- Reads elements as the fields in their order; says how many there were. -/
def inOrder : List (Field σ) → Bool → Nat → σ → Reader (Nat × σ)
  | [], _, count, state => return (count, state)
  | field :: fields, isFirst, count, state => do
    if ← another .square isFirst then
      let state ← field.read state
      inOrder fields false (count + 1) state
    else
      return (count, state)

/-- Reads the contents of an array that stands for the record.  As the fields that must be
given come first, one is missing exactly if the elements end before it. -/
def ofElements (r : Record σ α) : Reader α := do
  let (count, state) ← inOrder r.fields true 0 r.draft
  match r.complete state with
  | .ok value => return value
  | .error _ => reject (.invalidLength count r.expected r.fields.length)

/-- Reads the record. -/
def read (r : Record σ α) : Reader α := fun text =>
  match dropSpace text with
  | '\x7b' :: rest => enclosed .curly r.ofMembers rest
  | '[' :: rest => enclosed .square r.ofElements rest
  | rest => wrongType r.expected rest

end Record

end Keyring.Document
