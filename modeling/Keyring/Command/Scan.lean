/-
  Keyring.Command.Scan
  ────────────────────────────────
  **FROM ARGUMENTS TO OPTIONS AND OPERANDS.**

  The arguments are read from left to right.  The first that cannot be
  understood ends the reading, and so does a request for the version or
  for help: whichever comes first decides.  What follows the word `help`
  says what the help is about, and must be words that lead somewhere.

      `--name value`, `--name=value`  — an option with its value
      `-xyz`                          — letters of options without values
      `--`                            — only operands follow
      anything else, a lone hyphen included — a word: the value of the
        option before it, the word for the next level, or an operand
-/
import Keyring.Command.Grammar
import Keyring.Path

namespace Keyring.Command

/-! ## §1. Arguments one by one. -/

/-- The byte of a hyphen. -/
def hyphen : UInt8 := 0x2D

/-- The byte of an equals sign. -/
def equalsSign : UInt8 := 0x3D

/-- What an argument looks like. -/
inductive Token where
  /-- Two hyphens alone. -/
  | separator
  /-- Two hyphens and a name, perhaps with a value behind an equals sign. -/
  | long (name : Bytes) (value : Option Bytes)
  /-- One hyphen and letters. -/
  | short (letters : Bytes)
  /-- Anything else. -/
  | word (text : Bytes)
  deriving DecidableEq, Repr

/-- Splits at the first equals sign. -/
def splitValue (body : Bytes) : Bytes × Option Bytes :=
  match body.dropWhile (· != equalsSign) with
  | [] => (body, none)
  | _ :: value => (body.takeWhile (· != equalsSign), some value)

/-- The look of an argument. -/
def Token.of (argument : Bytes) : Token :=
  match argument with
  | a :: b :: rest =>
    if a ≠ hyphen then .word argument
    else if b ≠ hyphen then .short (b :: rest)
    else if rest = [] then .separator
    else
      let (name, value) := splitValue rest
      .long name value
  | _ => .word argument

/-! ## §2. What a level is given. -/

/-- Why the arguments are not understood. -/
inductive UsageError where
  | unknownOption (argument : Bytes)
  /-- An option that takes no value has one attached. -/
  | unexpectedValue (option : Opt)
  | missingValue (option : Opt)
  | repeated (option : Opt)
  /-- A path is empty. -/
  | emptyPath (option : Opt)
  /-- A value that must be text is not UTF-8. -/
  | notText (value : Bytes)
  | unexpectedOperand (operand : Bytes)
  | missingOperand
  | missingWord (level : Level)
  /-- Help is wanted with something that there is not. -/
  | unknownTopic (word : Bytes)
  /-- An option is missing that another one requires. -/
  | missingOption (option : Opt)
  /-- None of the options is given of which one is needed. -/
  | missingSource
  | conflicting (option other : Opt)
  deriving DecidableEq, Repr

/-- Why the reading of arguments ends without a command to carry out. -/
inductive Stop where
  | usage (cause : UsageError)
  | version
  | help
  deriving DecidableEq, Repr

/-- The value of an option. -/
inductive Value where
  /-- The option is there. -/
  | flag
  | path (p : Path)
  | text (s : String)
  deriving DecidableEq, Repr

/-- What a level is given. -/
structure Given where
  /-- The options with their values, in the order given. -/
  options : List (Opt × Value)
  operands : List String
  deriving DecidableEq, Repr

namespace Given

/-- Nothing. -/
def nothing : Given := ⟨[], []⟩

/-- The option is given. -/
def has (g : Given) (o : Opt) : Bool := g.options.any fun given => given.1 == o

/-- The value of an option that is a path. -/
def path? (g : Given) (o : Opt) : Option Path :=
  g.options.findSome? fun
    | (given, .path p) => if given = o then some p else none
    | _ => none

/-- The values of an option that are texts, in the order given. -/
def texts (g : Given) (o : Opt) : List String :=
  g.options.filterMap fun
    | (given, .text s) => if given = o then some s else none
    | _ => none

/-- The value of an option that is a text. -/
def text? (g : Given) (o : Opt) : Option String := (g.texts o).head?

/-- Adds an option; most may be given once only. -/
def add (g : Given) (o : Opt) (value : Value) : Except Stop Given :=
  if g.has o && !o.isRepeatable then .error (.usage (.repeated o))
  else .ok { g with options := g.options ++ [(o, value)] }

end Given

/-! ## §3. Reading. -/

/-- Bytes as the text they must be. -/
def readText (value : Bytes) : Except Stop String :=
  match value.toString? with
  | some text => .ok text
  | none => .error (.usage (.notText value))

/-- The value of an option. -/
def readValue (o : Opt) (value : Bytes) : Except Stop Value :=
  match o.takes with
  | .nothing => .error (.usage (.unexpectedValue o))
  | .path => if value = [] then .error (.usage (.emptyPath o)) else .ok (.path ⟨value⟩)
  | .text => (readText value).map .text

/-- Takes an option without a value. -/
def takeFlag (g : Given) : Opt → Except Stop Given
  | .version => .error .version
  | .help => .error .help
  | o => g.add o .flag

/-- Takes an option with its value. -/
def takeValue (g : Given) (o : Opt) (value : Bytes) : Except Stop Given := do
  g.add o (← readValue o value)

/-- Takes letters of options without values. -/
def takeLetters (level : Level) (g : Given) (letters : Bytes) : Except Stop Given :=
  letters.foldlM (fun g letter =>
    match level.options.find? fun o => o.short? == some (Char.ofNat letter.toNat) with
    | some o => takeFlag g o
    | none => .error (.usage (.unknownOption (hyphen :: letters)))) g

/-- Takes an operand. -/
def takeOperand (level : Level) (g : Given) (operand : Bytes) : Except Stop Given :=
  if level.mostOperands ≤ g.operands.length then .error (.usage (.unexpectedOperand operand))
  else (readText operand).map fun text => { g with operands := g.operands ++ [text] }

/-- The level to which a word leads. -/
def Level.descend? (level : Level) (word : Bytes) : Option Level :=
  (level.below.find? fun b => Bytes.ofString b.1 == word).map (·.2)

/-- A level that leads to others also knows the word `help`. -/
def Level.isHelp (level : Level) (word : Bytes) : Bool :=
  !level.below.isEmpty && word == Bytes.ofString Opt.help.long

/-- What comes of the arguments behind the word `help`.  Whatever they look like they count as
words, each of which must lead on; `help` itself is such a word, and nothing leads on from it. -/
def helpAbout (level : Level) : List Bytes → Stop
  | [] => .help
  | word :: rest =>
    match level.descend? word with
    | some inner => helpAbout inner rest
    | none =>
      if level.isHelp word then
        match rest with
        | [] => .help
        | word :: _ => .usage (.unknownTopic word)
      else .usage (.unknownTopic word)

/-- Reads arguments from a level on; gives what each level is given, outermost first. -/
def scan (level : Level) (g : Given) : List Bytes → Except Stop (List (Level × Given))
  | [] => .ok [(level, g)]
  | argument :: rest =>
    match Token.of argument with
    | .separator => do
      let g ← rest.foldlM (takeOperand level) g
      return [(level, g)]
    | .short letters => do
      let g ← takeLetters level g letters
      scan level g rest
    | .long name value =>
      match level.options.find? fun o => Bytes.ofString o.long == name with
      | none => .error (.usage (.unknownOption argument))
      | some o =>
        -- a value is attached, or it is the next argument, which must then be a word
        match o.takes, value, rest with
        | .nothing, none, rest => do
          let g ← takeFlag g o
          scan level g rest
        | _, some value, rest => do
          let g ← takeValue g o value
          scan level g rest
        | _, none, [] => .error (.usage (.missingValue o))
        | _, none, next :: rest =>
          match Token.of next with
          | .word value => do
            let g ← takeValue g o value
            scan level g rest
          | _ => .error (.usage (.missingValue o))
    | .word word =>
      match level.descend? word with
      | some inner => do
        let inward ← scan inner Given.nothing rest
        return (level, g) :: inward
      | none =>
        if level.isHelp word then .error (helpAbout level rest)
        else do
          let g ← takeOperand level g word
          scan level g rest

end Keyring.Command
