/-
  Keyring.Document.Print
  ────────────────────────────────
  **WRITING A REGISTRY AS A DOCUMENT.**

  Each member and each element stands on a line of its own, two spaces
  further in than what encloses it.  A default that is unset and a plugin
  configuration without settings are left out; an empty list of entries is
  `[]`.  Members come in a fixed order, entries in that of the registry,
  settings by ascending key.
-/
import Keyring.Document.StringLiteral
import Keyring.Registry.Basic

namespace Keyring.Document

/-! ## §1. Layout. -/

/-- A new line, indented to a depth. -/
def newLine (depth : Nat) : List Char :=
  '\n' :: List.replicate (2 * depth) ' '

/-- Parts on lines of their own between brackets, which stand at `depth`; without parts the
brackets stand together. -/
def block (opening closing : Char) (depth : Nat) (parts : List (List Char)) : List Char :=
  match parts with
  | [] => [opening, closing]
  | part :: parts =>
    opening :: newLine (depth + 1) ++ part
      ++ parts.flatMap (fun part => ',' :: newLine (depth + 1) ++ part)
      ++ newLine depth ++ [closing]

/-- A member: its name, and its value as written. -/
def writtenMember (name : String) (value : List Char) : List Char :=
  written name ++ ':' :: ' ' :: value

/-- An object of these members. -/
def writtenObject (depth : Nat) (members : List (String × List Char)) : List Char :=
  block '\x7b' '\x7d' depth (members.map fun m => writtenMember m.1 m.2)

/-- An array of these elements as written. -/
def writtenArray (depth : Nat) (elements : List (List Char)) : List Char :=
  block '[' ']' depth elements

/-! ## §2. The parts of a registry. -/

/-- A key pair. -/
def writtenKeyPair (depth : Nat) (pair : KeyPair) : List Char :=
  writtenObject depth [
    ("keyPath", written pair.keyPath),
    ("certificatePath", written pair.certificatePath)]

/-- The settings of a plugin. -/
def writtenConfig (depth : Nat) (config : Config) : List Char :=
  writtenObject depth (config.toList.map fun setting => (setting.1, written setting.2))

/-- A plugin key. -/
def writtenPluginKey (depth : Nat) (key : PluginKey) : List Char :=
  writtenObject depth ([
    ("id", written key.id),
    ("pluginName", written key.pluginName)]
    ++ if key.config.isEmpty then [] else [("pluginConfig", writtenConfig (depth + 1) key.config)])

/-- The member of an entry that holds its material. -/
def writtenMaterial (depth : Nat) : Material → String × List Char
  | .keyPair pair => ("x509KeyPair", writtenKeyPair depth pair)
  | .pluginKey key => ("externalKey", writtenPluginKey depth key)

/-- An entry. -/
def writtenEntry (depth : Nat) (entry : Entry) : List Char :=
  writtenObject depth [("name", written entry.name), writtenMaterial (depth + 1) entry.material]

/-- The member for the default, if it is set. -/
def writtenDefault : Option String → List (String × List Char)
  | none => []
  | some name => [("default", written name)]

/-- The characters of the document. -/
def printed (r : Registry) : List Char :=
  writtenObject 0
    (writtenDefault r.defaultName
      ++ [("keys", writtenArray 1 (r.entries.map (writtenEntry 2)))])

/-- The document of a registry, without a line break at its end. -/
def print (r : Registry) : String :=
  String.ofList (printed r)

end Keyring.Document
