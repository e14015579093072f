/-
  Keyring.Proofs.Document.Decoding
  ────────────────────────────────
  **WHICH JSON IS A REGISTRY.**

  The format of a registry as a function of the JSON tree alone.  It says
  nothing of how a text is read, and a tree that is no registry has no
  value here, whatever is wrong with it.

      chars?            — what a string says; nothing if a half of a pair is
                          left alone in it
      Json.given?       — the declared fields that an object or array gives
      field?, required? — the value of a field that may, or must, be given
      registry?         — the registry

  An object gives its declared fields by name, each once at most, and what
  else it holds does not count.  An array gives them in declared order and
  may stop early.
-/
import Keyring.Proofs.Document.Grammar
import Keyring.Proofs.Settings

namespace Keyring.Document

/-! ## §1. Strings. -/

/-- The characters that the parts of a string stand for: an escaped first half of a surrogate
pair only together with its second half. -/
def chars? : List Piece → Option (List Char)
  | [] => some []
  | .char c :: pieces => (chars? pieces).map (c :: ·)
  | .unit first :: pieces =>
    if first < 0xD800 ∨ 0xE000 ≤ first then (chars? pieces).map (Char.ofNat first :: ·)
    else
      match pieces with
      | .unit second :: pieces =>
        if first < 0xDC00 ∧ 0xDC00 ≤ second ∧ second < 0xE000 then
          let c := Char.ofNat (0x10000 + (first - 0xD800) * 0x400 + (second - 0xDC00))
          (chars? pieces).map (c :: ·)
        else none
      | _ => none

/-- What a string says. -/
def text? (pieces : List Piece) : Option String :=
  (chars? pieces).map String.ofList

/-! ## §2. Objects with declared fields. -/

/-- The members whose names are declared, in the order in which they stand. -/
def declaredOf (declared : List String) (members : List (String × Json)) : List (String × Json) :=
  members.filter fun m => declared.contains m.1

/-- The fields that are given, by name. -/
abbrev Given := List (String × Json)

/-- A member with its name read. -/
def named? (m : List Piece × Json) : Option (String × Json) := do
  return (← text? m.1, m.2)

namespace Json

/-- The text of a string. -/
def text? : Json → Option String
  | .string pieces => Document.text? pieces
  | _ => none

/-- The declared fields that the value gives: an object by name, none of them twice, an array in
their order. -/
def given? (declared : List String) : Json → Option Given
  | .object members => do
    let members ← members.mapM named?
    let given := declaredOf declared members
    if (given.map (·.1)).Nodup then some given else none
  | .array elements =>
    if elements.length ≤ declared.length then some (declared.zip elements) else none
  | _ => none

/-- A value that may be `null`. -/
def orNull (decode : Json → Option α) : Json → Option (Option α)
  | .null => some none
  | v => (decode v).map some

theorem orNull_of_ne_null (decode : Json → Option α) {v : Json} (h : v ≠ .null) :
    orNull decode v = (decode v).map some := by
  rw [orNull]
  exact h

end Json

/-- The value of a field that need not be given. -/
def field? (given : Given) (name : String) (decode : Json → Option α) : Option (Option α) :=
  match given.lookup name with
  | none => some none
  | some v => (decode v).map some

/-- The value of a field that must be given. -/
def required? (given : Given) (name : String) (decode : Json → Option α) : Option α := do
  decode (← given.lookup name)

/-! ## §3. Registries. -/

/-- A key pair. -/
def keyPair? (v : Json) : Option KeyPair := do
  let given ← v.given? ["keyPath", "certificatePath"]
  let keyPath ← required? given "keyPath" Json.text?
  let certificatePath ← required? given "certificatePath" Json.text?
  return ⟨keyPath, certificatePath⟩

/-- A setting of a plugin. -/
def setting? (m : List Piece × Json) : Option Setting := do
  return (← text? m.1, ← m.2.text?)

/-- The configuration of a plugin: an object of strings.  Of several settings of one key the last
counts (`Config.get?_ofList`). -/
def config? : Json → Option Config
  | .object members => (members.mapM setting?).map Config.ofList
  | _ => none

/-- A plugin key. -/
def pluginKey? (v : Json) : Option PluginKey := do
  let given ← v.given? ["id", "pluginName", "pluginConfig"]
  let id ← required? given "id" Json.text?
  let pluginName ← required? given "pluginName" Json.text?
  let config ← field? given "pluginConfig" config?
  return ⟨id, pluginName, config.getD Config.empty⟩

/-- An entry, whatever materials it sets; `null` sets none. -/
def rawEntry? (v : Json) : Option RawEntry := do
  let given ← v.given? ["name", "x509KeyPair", "externalKey"]
  let name ← required? given "name" Json.text?
  let pair ← field? given "x509KeyPair" (Json.orNull keyPair?)
  let plugin ← field? given "externalKey" (Json.orNull pluginKey?)
  return ⟨name, pair.join, plugin.join⟩

/-- The one material of an entry, if it can be used. -/
def RawEntry.material? (raw : RawEntry) : Option Material :=
  match raw.pair, raw.plugin with
  | some pair, none => some (.keyPair pair)
  | none, some key =>
    if Text.isBlank key.id = false ∧ Text.isBlank key.pluginName = false then
      some (.pluginKey key)
    else none
  | _, _ => none

/-- An entry. -/
def entry? (v : Json) : Option Entry := do
  let raw ← rawEntry? v
  return ⟨raw.name, ← raw.material?⟩

/-- A list of entries. -/
def entries? : Json → Option (List Entry)
  | .array elements => elements.mapM entry?
  | _ => none

/-- A registry. -/
def registry? (v : Json) : Option Registry := do
  let given ← v.given? ["default", "keys"]
  let defaultName ← field? given "default" (Json.orNull Json.text?)
  let entries ← field? given "keys" entries?
  return ⟨defaultName.join, entries.getD []⟩

end Keyring.Document
