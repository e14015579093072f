/-
  Keyring.Entry
  ────────────────────────────────
  **NAMED SIGNING KEYS.**

  An entry gives a name to signing material.  The material is one of two:
  a private key with its certificate, kept in two files, or a key that a
  signing plugin holds and that is known here by its id alone.
-/
import Keyring.Config

namespace Keyring

/-- A private key and its certificate in two files. -/
structure KeyPair where
  keyPath : String
  certificatePath : String
  deriving DecidableEq

/-- A key that a signing plugin holds. -/
structure PluginKey where
  /-- The plugin knows the key by this. -/
  id : String
  pluginName : String
  /-- What the plugin is told besides. -/
  config : Config
  deriving DecidableEq

/-- What a name stands for. -/
inductive Material where
  | keyPair (pair : KeyPair)
  | pluginKey (key : PluginKey)
  deriving DecidableEq

/-- A named signing key. -/
structure Entry where
  name : String
  material : Material
  deriving DecidableEq

/-- The short word for the kind of material. -/
def Material.kind : Material → String
  | .keyPair _ => "local"
  | .pluginKey _ => "plugin"

end Keyring
