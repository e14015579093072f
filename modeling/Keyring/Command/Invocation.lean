/-
  Keyring.Command.Invocation
  ────────────────────────────────
  **WHAT THE ARGUMENTS ASK FOR.**

  Once every level has its options and operands, they have to make sense
  together: a verb is there with the operands it needs, and the options of
  `add` keep the rules of `Opt.requires` and `Opt.conflicts`.

  An option that is required, directly or through others, may be missing
  when an option that is given conflicts with it.
-/
import Keyring.Command.Scan

namespace Keyring.Command

/-! ## §1. What can be asked for. -/

/-- A key to add, as it was asked for. -/
structure AddRequest where
  name : String
  key : Option Path
  cert : Option Path
  plugin : Option String
  id : Option String
  /-- Settings of the plugin, each `KEY=VALUE`. -/
  pluginConfig : List String
  makeDefault : Bool
  deriving DecidableEq, Repr

/-- Something to do with keys. -/
inductive Action where
  | add (request : AddRequest)
  | list
  /-- Present the named key, or the default. -/
  | present (name : Option String)
  | choose (name : String)
  | remove (name : String)
  deriving DecidableEq, Repr

/-- An action and where to carry it out. -/
structure Invocation where
  /-- The configuration folder, if one was named. -/
  configDir : Option Path
  action : Action
  deriving DecidableEq, Repr

/-! ## §2. Rules for options. -/

/-- The options required by some options, directly or through others.  No chain of requirements
is longer than there are options. -/
def requiredBy (options : List Opt) : List Opt :=
  go 10 options
where
  go : Nat → List Opt → List Opt
    | 0, _ => []
    | steps + 1, options =>
      let next := options.flatMap Opt.requires
      next ++ (if next.isEmpty then [] else go steps next)

/-- An option is given that conflicts with this one. -/
def Given.excludes (g : Given) (o : Opt) : Bool := o.conflicts.any g.has

/-- The options given, without their values. -/
def Given.names (g : Given) : List Opt := g.options.map (·.1)

/-- Checks the options of `add` against each other. -/
def checkOptions (g : Given) : Except Stop Unit :=
  match g.names.find? g.excludes with
  | some o => .error (.usage (.conflicting o (o.conflicts.headD o)))
  | none =>
    if !sources.any g.has then .error (.usage .missingSource)
    else
      match (requiredBy g.names).find? fun o => !g.has o && !g.excludes o with
      | some o => .error (.usage (.missingOption o))
      | none => .ok ()

/-! ## §3. Actions. -/

/-- The operand of a verb that needs one. -/
def Given.operand (g : Given) : Except Stop String :=
  match g.operands with
  | operand :: _ => .ok operand
  | [] => .error (.usage .missingOperand)

/-- The request of `add`. -/
def Given.addRequest (g : Given) (name : String) : AddRequest where
  name := name
  key := g.path? .key
  cert := g.path? .cert
  plugin := g.text? .plugin
  id := g.text? .id
  pluginConfig := g.texts .pluginConfig
  makeDefault := g.has .default

/-- The action of a verb. -/
def Verb.action (v : Verb) (g : Given) : Except Stop Action :=
  match v with
  | .add => do
    checkOptions g
    return .add (g.addRequest (← g.operand))
  | .list => .ok .list
  | .present => .ok (.present g.operands.head?)
  | .choose => (g.operand).map .choose
  | .remove => (g.operand).map .remove

/-! ## §4. The whole command line. -/

/-- The configuration folder: the one named at the innermost level counts, and any before the
one that the environment names.  Where a level names none the environment is looked at, and the
name there must not be empty. -/
def configFolder (levels : List (Level × Given)) (inherited : Option Bytes) :
    Except Stop (Option Path) :=
  if inherited = some [] && levels.any (fun l => !l.2.has .configDir) then
    .error (.usage (.emptyPath .configDir))
  else
    match levels.reverse.findSome? fun l => l.2.path? .configDir with
    | some folder => .ok (some folder)
    | none => .ok (inherited.map Path.mk)

/-- The innermost level and what it is given. -/
def innermost (levels : List (Level × Given)) : Level × Given :=
  levels.getLastD (.program, .nothing)

/-- What arguments ask for; `inherited` is the configuration folder that the environment names. -/
def interpret (arguments : List Bytes) (inherited : Option Bytes) : Except Stop Invocation := do
  let levels ← scan .program .nothing arguments
  let configDir ← configFolder levels inherited
  match innermost levels with
  | (.verb v, g) => return ⟨configDir, ← v.action g⟩
  | (level, _) => .error (.usage (.missingWord level))

end Keyring.Command
