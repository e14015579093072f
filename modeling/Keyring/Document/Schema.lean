/-
  Keyring.Document.Schema
  ────────────────────────────────
  **THE SHAPE OF A REGISTRY DOCUMENT.**

      registry    default?, keys?                    keys: array of entries
      entry       name, x509KeyPair?, externalKey?   one of the last two
      key pair    keyPath, certificatePath
      plugin key  id, pluginName, pluginConfig?      pluginConfig: strings

  A field with a question mark need not be given; `default`, `x509KeyPair`
  and `externalKey` may also be `null`.  Whether an entry has exactly one
  material, and a usable one, is looked at once the entry has been read to
  its end.
-/
import Keyring.Document.Record
import Keyring.Registry.Basic

namespace Keyring.Document

open Reader

/-! ## §1. Key pairs and plugin keys. -/

/-- What of a key pair has been given. -/
structure KeyPairDraft where
  keyPath : Option String
  certificatePath : Option String

/-- A field that must be given. -/
def required (name : String) : Option α → Except String α
  | some value => .ok value
  | none => .error name

/-- Key pairs. -/
def keyPair : Record KeyPairDraft KeyPair where
  expected := "struct X509KeyPair"
  draft := ⟨none, none⟩
  fields := [
    { name := "keyPath"
      isGiven := fun d => d.keyPath.isSome
      read := fun d => do return { d with keyPath := some (← string) } },
    { name := "certificatePath"
      isGiven := fun d => d.certificatePath.isSome
      read := fun d => do return { d with certificatePath := some (← string) } }]
  complete d := do
    let keyPath ← required "keyPath" d.keyPath
    let certificatePath ← required "certificatePath" d.certificatePath
    return ⟨keyPath, certificatePath⟩

/-- Reads a setting of a plugin from behind its key; of two with one key the later counts. -/
def setting (config : Config) (key : String) : Reader Config := do
  colon
  let value ← string
  return config.insert key value

/-- Reads the configuration of a plugin. -/
def pluginConfig : Reader Config := fun text =>
  match dropSpace text with
  | '\x7b' :: rest => enclosed .curly (members setting Config.empty) rest
  | rest => wrongType "a map" rest

/-- What of a plugin key has been given. -/
structure PluginKeyDraft where
  id : Option String
  pluginName : Option String
  config : Option Config

/-- Plugin keys. -/
def pluginKey : Record PluginKeyDraft PluginKey where
  expected := "struct ExternalKey"
  draft := ⟨none, none, none⟩
  fields := [
    { name := "id"
      isGiven := fun d => d.id.isSome
      read := fun d => do return { d with id := some (← string) } },
    { name := "pluginName"
      isGiven := fun d => d.pluginName.isSome
      read := fun d => do return { d with pluginName := some (← string) } },
    { name := "pluginConfig"
      isGiven := fun d => d.config.isSome
      read := fun d => do return { d with config := some (← pluginConfig) } }]
  complete d := do
    let id ← required "id" d.id
    let pluginName ← required "pluginName" d.pluginName
    return ⟨id, pluginName, d.config.getD Config.empty⟩

/-! ## §2. Entries. -/

/-- An entry as it stands in a document. -/
structure RawEntry where
  name : String
  pair : Option KeyPair
  plugin : Option PluginKey

/-- What of an entry has been given; a field given as `null` is given. -/
structure EntryDraft where
  name : Option String
  pair : Option (Option KeyPair)
  plugin : Option (Option PluginKey)

/-- Entries as they stand in a document. -/
def rawEntry : Record EntryDraft RawEntry where
  expected := "struct RawKeyEntry"
  draft := ⟨none, none, none⟩
  fields := [
    { name := "name"
      isGiven := fun d => d.name.isSome
      read := fun d => do return { d with name := some (← string) } },
    { name := "x509KeyPair"
      isGiven := fun d => d.pair.isSome
      read := fun d => do return { d with pair := some (← nullable keyPair.read) } },
    { name := "externalKey"
      isGiven := fun d => d.plugin.isSome
      read := fun d => do return { d with plugin := some (← nullable pluginKey.read) } }]
  complete d := do
    let name ← required "name" d.name
    return ⟨name, d.pair.join, d.plugin.join⟩

/-- The material of an entry: exactly one must be set, a plugin key with an id and a plugin
name that are not blank. -/
def RawEntry.material (raw : RawEntry) : Except Unfit Material :=
  match raw.pair, raw.plugin with
  | some _, some _ => .error .bothMaterials
  | none, none => .error .noMaterial
  | some pair, none => .ok (.keyPair pair)
  | none, some key =>
    if Text.isBlank key.id then .error .blankId
    else if Text.isBlank key.pluginName then .error .blankPluginName
    else .ok (.pluginKey key)

/-- Reads an entry. -/
def entry : Reader Entry := do
  let raw ← rawEntry.read
  match raw.material with
  | .ok material => return ⟨raw.name, material⟩
  | .error unfit => reject (.unfitEntry raw.name unfit)

/-! ## §3. The registry. -/

/-- Reads the list of entries. -/
def entries : Reader (List Entry) := fun text =>
  match dropSpace text with
  | '[' :: rest => enclosed .square (elements entry) rest
  | rest => wrongType "a sequence" rest

/-- What of a registry has been given; a default given as `null` is given. -/
structure RegistryDraft where
  defaultName : Option (Option String)
  entries : Option (List Entry)

/-- Registries. -/
def registry : Record RegistryDraft Registry where
  expected := "struct SigningKeys"
  draft := ⟨none, none⟩
  fields := [
    { name := "default"
      isGiven := fun d => d.defaultName.isSome
      read := fun d => do return { d with defaultName := some (← nullable string) } },
    { name := "keys"
      isGiven := fun d => d.entries.isSome
      read := fun d => do return { d with entries := some (← entries) } }]
  complete d := .ok ⟨d.defaultName.join, d.entries.getD []⟩

/-! ## §4. Whole documents. -/

/-- Reads a registry and the white space after it, up to the end of the text. -/
def document : Reader Registry := do
  let r ← registry.read
  space
  fun rest =>
    match rest with
    | [] => .ok r []
    | rest => failPast .trailingCharacters rest

/-- The registry that a text describes, or the first fault in it.  Nothing is asked of the
registry beyond its shape. -/
def parse (text : String) : Except DocumentError Registry :=
  match document text.toList with
  | .ok r _ => .ok r
  | .fail fault left => .error ⟨fault, Position.before text left⟩
  | .mismatch cause rest => .error ⟨.mismatch cause, Position.before text (size rest)⟩

end Keyring.Document
