/-
  Keyring.Document.Fault
  ────────────────────────────────
  **WHY A DOCUMENT IS REFUSED.**

  A document fails in one of three ways: its text ends too soon, it is not
  JSON, or it is JSON of another shape than a registry.  Each cause is a
  constructor here, and `Fault.message` is the one place that words them.

      Fault          — all causes
      Mismatch       — the causes of the third kind
      DocumentError  — a fault together with where it was found
-/
import Keyring.Decimal.Layout
import Keyring.Document.Position
import Keyring.Text.Quoted

namespace Keyring.Document

/-! ## §1. What stood where something else was expected. -/

/-- A value of a kind that does not fit. -/
inductive Found where
  | null
  | boolean (value : Bool)
  | integer (value : Int)
  /-- A number with a fraction or an exponent, or too large for an integer: its text. -/
  | floating (text : String)
  | string (value : String)
  /-- Any array. -/
  | sequence
  /-- Any object. -/
  | map
  deriving DecidableEq, Repr

/-- The value as it is named in a message. -/
def Found.text : Found → String
  | .null => "null"
  | .boolean value => "boolean `" ++ toString value ++ "`"
  | .integer value => "integer `" ++ toString value ++ "`"
  | .floating text => "floating point `" ++ text ++ "`"
  | .string value => "string " ++ Text.quoted value
  | .sequence => "sequence"
  | .map => "map"

/-! ## §2. Values of the wrong shape. -/

/-- What is wrong with the materials of an entry. -/
inductive Unfit where
  /-- Both a key pair and a plugin key are set. -/
  | bothMaterials
  /-- Neither of the two is set. -/
  | noMaterial
  /-- The id of the plugin key is blank. -/
  | blankId
  /-- The plugin name of the plugin key is blank. -/
  | blankPluginName
  deriving DecidableEq, Repr

/-- JSON that is no registry. -/
inductive Mismatch where
  /-- A value of another type than the one expected. -/
  | wrongType (found : Found) (expected : String)
  /-- A field that must be given is not. -/
  | missingField (field : String)
  /-- A field is given twice. -/
  | duplicateField (field : String)
  /-- An array in place of an object is too short for its fields. -/
  | invalidLength (length : Nat) (expected : String) (fields : Nat)
  /-- The entry with this name has no material, or one that cannot be used. -/
  | unfitEntry (name : String) (unfit : Unfit)
  deriving DecidableEq, Repr

/-- The wording of an unfit entry. -/
def Unfit.message (name : String) : Unfit → String
  | .bothMaterials => "key '" ++ name ++ "' sets both x509KeyPair and externalKey"
  | .noMaterial => "key '" ++ name ++ "' must set one of x509KeyPair or externalKey"
  | .blankId => "key '" ++ name ++ "' has an empty plugin key id"
  | .blankPluginName => "key '" ++ name ++ "' has an empty plugin name"

/-- The wording of a mismatch. -/
def Mismatch.message : Mismatch → String
  | .wrongType found expected => "invalid type: " ++ found.text ++ ", expected " ++ expected
  | .missingField field => "missing field `" ++ field ++ "`"
  | .duplicateField field => "duplicate field `" ++ field ++ "`"
  | .invalidLength length expected fields =>
    "invalid length " ++ toString length ++ ", expected " ++ expected ++ " with "
      ++ toString fields ++ " elements"
  | .unfitEntry name unfit => unfit.message name

/-! ## §3. All faults. -/

/-- Why a text is no document. -/
inductive Fault where
  /-- The text ends where a value should stand or go on. -/
  | endInValue
  | endInString
  | endInObject
  | endInList
  /-- A name is not followed by a colon. -/
  | expectedColon
  | expectedCommaOrBracket
  | expectedCommaOrBrace
  /-- A word that begins like `null`, `true` or `false` goes on differently. -/
  | expectedWord
  /-- No value begins like this. -/
  | expectedValue
  /-- The name of a member is not a string. -/
  | nameNotString
  | trailingComma
  /-- Something follows where nothing more may stand. -/
  | trailingCharacters
  /-- A control character stands unescaped in a string. -/
  | controlCharacter
  | invalidEscape
  /-- An escaped surrogate is not one half of a pair. -/
  | loneSurrogate
  /-- The first half of an escaped pair is not followed by another escape. -/
  | unfinishedPair
  | invalidNumber
  | numberOutOfRange
  /-- The JSON is no registry. -/
  | mismatch (cause : Mismatch)
  deriving DecidableEq, Repr

/-- The three kinds of fault. -/
inductive Category where
  /-- The text ends too soon. -/
  | endOfText
  /-- The text is not JSON. -/
  | grammar
  /-- The JSON is no registry. -/
  | content
  deriving DecidableEq, Repr

/-- The kind of a fault. -/
def Fault.category : Fault → Category
  | .endInValue | .endInString | .endInObject | .endInList => .endOfText
  | .mismatch _ => .content
  | _ => .grammar

/-- The wording of a fault. -/
def Fault.message : Fault → String
  | .endInValue => "EOF while parsing a value"
  | .endInString => "EOF while parsing a string"
  | .endInObject => "EOF while parsing an object"
  | .endInList => "EOF while parsing a list"
  | .expectedColon => "expected `:`"
  | .expectedCommaOrBracket => "expected `,` or `]`"
  | .expectedCommaOrBrace => "expected `,` or `\x7d`"
  | .expectedWord => "expected ident"
  | .expectedValue => "expected value"
  | .nameNotString => "key must be a string"
  | .trailingComma => "trailing comma"
  | .trailingCharacters => "trailing characters"
  | .controlCharacter => "control character (\\u0000-\\u001F) found while parsing a string"
  | .invalidEscape => "invalid escape"
  | .loneSurrogate => "lone leading surrogate in hex escape"
  | .unfinishedPair => "unexpected end of hex escape"
  | .invalidNumber => "invalid number"
  | .numberOutOfRange => "number out of range"
  | .mismatch cause => cause.message

/-- A fault and the place up to which the text had been read. -/
structure DocumentError where
  fault : Fault
  position : Position
  deriving DecidableEq, Repr

/-- The wording of a fault with its place. -/
def DocumentError.message (e : DocumentError) : String :=
  e.fault.message ++ " at line " ++ toString e.position.line ++ " column "
    ++ toString e.position.column

end Keyring.Document
