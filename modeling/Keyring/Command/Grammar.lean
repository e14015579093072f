/-
  Keyring.Command.Grammar
  ────────────────────────────────
  **THE WORDS OF THE COMMAND LINE.**

      signkeys [options] keys [options] <verb> [options] [operands]

  Options may stand at three levels: before `keys`, between `keys` and the
  verb, and after the verb.  Which options and how many operands a level
  takes is a table here, and so is what the options of `add` ask of each
  other.
-/
import Keyring.Text.Bytes

namespace Keyring.Command

/-! ## §1. Levels. -/

/-- What can be done with keys. -/
inductive Verb where
  | add
  | list
  | present
  | choose
  | remove
  deriving DecidableEq, Repr

/-- The word for a verb. -/
def Verb.word : Verb → String
  | .add => "add"
  | .list => "list"
  | .present => "show"
  | .choose => "set-default"
  | .remove => "remove"

/-- All verbs. -/
def Verb.all : List Verb := [.add, .list, .present, .choose, .remove]

/-- The places where options may stand. -/
inductive Level where
  /-- Before `keys`. -/
  | program
  /-- After `keys` and before the verb. -/
  | keys
  /-- After the verb. -/
  | verb (v : Verb)
  deriving DecidableEq, Repr

/-- The words that lead from a level to the next. -/
def Level.below : Level → List (String × Level)
  | .program => [("keys", .keys)]
  | .keys => Verb.all.map fun v => (v.word, .verb v)
  | .verb _ => []

/-- The most operands that a level takes. -/
def Level.mostOperands : Level → Nat
  | .verb .add | .verb .present | .verb .choose | .verb .remove => 1
  | _ => 0

/-! ## §2. Options. -/

/-- Everything that begins with a hyphen. -/
inductive Opt where
  | configDir
  | verbose
  | version
  | help
  | key
  | cert
  | plugin
  | id
  | pluginConfig
  | default
  deriving DecidableEq, Repr

/-- What follows an option. -/
inductive Takes where
  | nothing
  | path
  | text
  deriving DecidableEq, Repr

namespace Opt

/-- The name of an option behind its two hyphens. -/
def long : Opt → String
  | .configDir => "config-dir"
  | .verbose => "verbose"
  | .version => "version"
  | .help => "help"
  | .key => "key"
  | .cert => "cert"
  | .plugin => "plugin"
  | .id => "id"
  | .pluginConfig => "plugin-config"
  | .default => "default"

/-- The letter of an option behind one hyphen. -/
def short? : Opt → Option Char
  | .verbose => some 'v'
  | .version => some 'V'
  | .help => some 'h'
  | _ => none

/-- What follows an option. -/
def takes : Opt → Takes
  | .configDir | .key | .cert => .path
  | .plugin | .id | .pluginConfig => .text
  | .verbose | .version | .help | .default => .nothing

/-- The option may be given more than once at a level. -/
def isRepeatable (o : Opt) : Bool := o == .pluginConfig

/-- The options that must come with an option. -/
def requires : Opt → List Opt
  | .key => [.cert]
  | .cert => [.key]
  | .plugin => [.id]
  | .id => [.plugin]
  | .pluginConfig => [.plugin]
  | _ => []

/-- The options that must not come with an option. -/
def conflicts : Opt → List Opt
  | .key => [.plugin]
  | .plugin => [.key]
  | _ => []

end Opt

/-- The options of a level; those of every level come first. -/
def Level.options : Level → List Opt
  | .program => [.configDir, .verbose, .help, .version]
  | .verb .add =>
    [.configDir, .verbose, .help, .key, .cert, .plugin, .id, .pluginConfig, .default]
  | _ => [.configDir, .verbose, .help]

/-- Of these options `add` needs one at least: they say where the key comes from. -/
def sources : List Opt := [.key, .plugin]

end Keyring.Command
