/-
  Keyring.Terminal.Line
  ────────────────────────────────
  **LINES OF A REPORT.**

  What a command has to say is a list of lines of a few kinds.  A line
  keeps its parts, so that what is reported can be told from how it looks;
  `Line.text` lays it out.
-/
import Keyring.Terminal.Style

namespace Keyring.Terminal

/-- A line of a report. -/
inductive Line where
  /-- Something was done. -/
  | success (message : String)
  /-- Something deserves attention. -/
  | warning (message : String)
  /-- A heading, with an empty line before it. -/
  | heading (title : String)
  /-- A labelled value. -/
  | field (label value : String)
  /-- A key in a list. -/
  | key (isDefault : Bool) (name kind detail : String)
  /-- Any other line. -/
  | plain (text : String)
  deriving DecidableEq, Repr

/-- The columns in which a label stands with its colon. -/
def labelWidth : Nat := 13

/-- Fills up with spaces at the end. -/
def padTo (width : Nat) (text : String) : String :=
  text ++ String.ofList (List.replicate (width - text.length) ' ')

/-- A sign in front of a message, two spaces in. -/
def signed (sign message : String) : String :=
  "  " ++ sign ++ " " ++ message

/-- The line as it is written, with its line break. -/
def Line.text (inColor : Bool) : Line → String
  | .success message => signed (paint inColor .green "✓") message ++ "\n"
  | .warning message => signed (paint inColor .yellow "⚠") message ++ "\n"
  | .heading title => "\n" ++ paint inColor .bold title ++ "\n"
  | .field label value =>
    "  " ++ paint inColor .dimmed (padTo labelWidth (label ++ ":")) ++ value ++ "\n"
  | .key isDefault name kind detail =>
    let marker := if isDefault then paint inColor .green "*" else " "
    let shown := if isDefault then paint inColor .bold name else name
    signed marker shown ++ "  [" ++ kind ++ "]  " ++ paint inColor .dimmed detail ++ "\n"
  | .plain text => text ++ "\n"

/-- The lines one after another. -/
def report (inColor : Bool) (lines : List Line) : String :=
  String.join (lines.map (Line.text inColor))

/-- The line for a failure. -/
def failure (inColor : Bool) (message : String) : String :=
  signed (paint inColor .red "✗") ("Error: " ++ message) ++ "\n"

end Keyring.Terminal
