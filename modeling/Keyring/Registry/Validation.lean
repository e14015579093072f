/-
  Keyring.Registry.Validation
  ────────────────────────────────
  **THE RULES OF A REGISTRY.**

  No name is blank, no two entries share a name, and the default, if there
  is one, is the name of an entry.  The rules are checked in this order
  and the first that is broken is reported; of repeated names, the one
  whose repetition comes first.
-/
import Keyring.Registry.Basic

namespace Keyring

open Text (isBlank)

/-- The first name that also stands before it. -/
def firstRepeated? (names : List String) : Option String :=
  go [] names
where
  /-- Goes through the names, with those before in `seen`. -/
  go : List String → List String → Option String
    | _, [] => none
    | seen, name :: names => if seen.contains name then some name else go (name :: seen) names

namespace Registry

/-- The rule for the default. -/
def validateDefault (r : Registry) : Except Violation Unit :=
  match r.defaultName with
  | none => .ok ()
  | some name =>
    if isBlank name then .error .emptyDefault
    else if r.names.contains name then .ok ()
    else .error (.invalidDefault name)

/-- Checks every rule and reports the first that is broken. -/
def validate (r : Registry) : Except Violation Unit :=
  if r.names.any isBlank then .error .emptyKeyName
  else
    match firstRepeated? r.names with
    | some name => .error (.duplicateName name)
    | none => r.validateDefault

/-- The registry, if it keeps the rules. -/
def validated (r : Registry) : Except KeyError Registry :=
  match r.validate with
  | .ok () => .ok r
  | .error violation => .error (.invalid violation)

end Registry

end Keyring
