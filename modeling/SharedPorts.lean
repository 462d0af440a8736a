import SharedPorts.Cli.Program
import SharedPorts.Main
import SharedPorts.Service.Script
import SharedPorts.Proofs.Service.Trace
import SharedPorts.Proofs.Forward.Endings
import SharedPorts.Proofs.Service.Lifecycle
import SharedPorts.Proofs.Forward.FirstEnd
import SharedPorts.Proofs.Forward.Unwinding
import SharedPorts.Proofs.Text.Utf8
import SharedPorts.Proofs.Text.Digits
import SharedPorts.Proofs.IpAddress
import SharedPorts.Proofs.Json.Literal
import SharedPorts.Proofs.Json.Reader
import SharedPorts.Proofs.Config.Codec
import SharedPorts.Proofs.FileSystem.Walk
import SharedPorts.Proofs.Config.Refinement
import SharedPorts.Proofs.Json.Tokens
import SharedPorts.Proofs.Jsonc.Leniency
import SharedPorts.Proofs.Jsonc.Commas
import SharedPorts.Proofs.Service.Levels
import SharedPorts.Proofs.Service.Metadata
import SharedPorts.Proofs.Service.FirstFailure
import SharedPorts.Proofs.Config.RoundTrip
import SharedPorts.Proofs.Config.Safety
import SharedPorts.Proofs.FileSystem.Frame
import SharedPorts.Proofs.Machine.LastWrite
import SharedPorts.Proofs.Jsonc.Lines
import SharedPorts.Proofs.Text.Fields
import SharedPorts.Proofs.Text.Integer
import SharedPorts.Proofs.Request
import SharedPorts.Proofs.PortLabels
import SharedPorts.Proofs.Machine.Names
import SharedPorts.Proofs.Listener.Address
import SharedPorts.Proofs.Listener.Scan
import SharedPorts.Proofs.Listener.Scope
import SharedPorts.Proofs.Machine.Choice
import SharedPorts.Proofs.Text.Columns
import SharedPorts.Proofs.Listener.Agreement
import SharedPorts.Proofs.Listing
import SharedPorts.Proofs.Jsonc.Comments
import SharedPorts.Proofs.Json.Spelling
import SharedPorts.Proofs.Json.Grammar
import SharedPorts.Proofs.Json.Members
import SharedPorts.Proofs.Config.Fields
import SharedPorts.Proofs.Config.Content
