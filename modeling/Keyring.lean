import Keyring.Main
import Keyring.Proofs.Settings
import Keyring.Proofs.Path.Absolute
import Keyring.Proofs.Registry.Calls
import Keyring.Proofs.Registry.History
import Keyring.Proofs.Registry.Choice
import Keyring.Proofs.Registry.Violations
import Keyring.Proofs.Registry.InPlace
import Keyring.Proofs.Registry.Refusals
import Keyring.Proofs.Registry.Removals
import Keyring.Proofs.Document.Reading
import Keyring.Proofs.Document.StringLiteral
import Keyring.Proofs.Document.Layout
import Keyring.Proofs.Document.RoundTrip
import Keyring.Proofs.Document.Acceptance
import Keyring.Proofs.Document.Truncation
import Keyring.Proofs.Document.Unfit
import Keyring.Proofs.Document.UnknownMembers
import Keyring.Proofs.Document.Escapes
import Keyring.Proofs.Store.Runs
import Keyring.Proofs.Store.Requests
import Keyring.Proofs.Store.Folders
import Keyring.Proofs.Store.Soundness
import Keyring.Proofs.Store.Refusals
import Keyring.Proofs.Store.Faults
import Keyring.Proofs.Store.Failure
import Keyring.Proofs.Store.Truncation
import Keyring.Proofs.FileSystem.Change
import Keyring.Proofs.FileSystem.Effects
import Keyring.Proofs.Store.Replacement
import Keyring.Proofs.Store.Transparency
import Keyring.Proofs.Store.Frame
import Keyring.Proofs.Store.Clearance
import Keyring.Proofs.Store.Loadable
import Keyring.Proofs.Command.Durability
import Keyring.Proofs.Command.Scan
import Keyring.Proofs.Command.Sources
import Keyring.Proofs.Command.Additions
import Keyring.Proofs.Terminal
import Keyring.Proofs.Command.Listing
import Keyring.Proofs.Command.Settings
import Keyring.Proofs.Command.Presentation
