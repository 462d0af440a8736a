import SharedPorts.Listener.Basic
import SharedPorts.SystemError
import SharedPorts.Text.Blank
import SharedPorts.Text.Utf8

/-!
# `SharedPorts.Listener.Scan` — the listening sockets of this machine

Each platform has a program that prints the listening sockets as a table. A scan reads the table line by
line, passes over every line that shows no address, and reports one socket for each port.

## Contents
- **Errors.** `ScanError` and its wording.
- **Platforms.** `Platform`, and the program that lists the sockets there.
- **Lines.** `socketColumn?` and `fileColumn?`, the address column of a line of `ss` and of `lsof`.
- **Tables.** `collect`, one socket a port, in the order of ports; `scanSockets`, `scanFiles`, `scan`.
-/

namespace SharedPorts

/-! ## Errors -/

/-- Why a scan fails. -/
inductive ScanError
  | notStarted (program : String) (cause : SystemError)
  | failed (text : String)
  | notText (program : String) (fault : Utf8.Fault)
  | unsupported
  deriving DecidableEq, Repr

/-- What an error says. -/
def ScanError.message : ScanError → String
  | .notStarted program cause =>
    s!"Command execution failed: Failed to run {program}: {cause.message}"
  | .failed text => s!"Command execution failed: {text}"
  | .notText program fault =>
    s!"Failed to parse output: Invalid UTF-8 in {program} output: {fault.message}"
  | .unsupported =>
    "Platform not supported: listing listening ports is not supported on Windows"

/-! ## Platforms -/

/-- The platforms. -/
inductive Platform
  | linux
  | macOS
  | windows
  deriving DecidableEq, Repr

namespace Listener

/-! ## Lines -/

/-- The local address in a line of `ss`: the fourth of at least five columns. -/
def socketColumn? : List (List Char) → Option (List Char)
  | _ :: _ :: _ :: address :: _ :: _ => some address
  | _ => none

/-- Whether a column of `lsof` may be an address: it has a colon and is no hexadecimal device or
    offset. -/
def looksLikeAddress (column : List Char) : Bool :=
  column.contains ':' && column.take 2 != ['0', 'x'] && column.take 2 != ['0', 't']

/-- The address in a line of `lsof`: the last column from the ninth on that may be one. -/
def fileColumn? (columns : List (List Char)) : Option (List Char) :=
  (columns.drop 8).reverse.find? looksLikeAddress

/-- The socket in a line, whose address stands in a given column. -/
def ofLine? (column? : List (List Char) → Option (List Char)) (line : List Char) : Option Listener :=
  (column? (Text.words line)).bind parse?

/-! ## Tables -/

/-- The first socket of each port. -/
def firstOfEach : List Listener → List Listener
  | [] => []
  | l :: ls => l :: (firstOfEach ls).filter (·.port != l.port)

/-- One socket for each port, the first one, in the order of ports. -/
def collect (ls : List Listener) : List Listener :=
  (firstOfEach ls).mergeSort (·.port ≤ ·.port)

/-- The sockets in a table of `ss`. -/
def scanSockets (text : String) : List Listener :=
  collect ((Text.lines text.toList).filterMap (ofLine? socketColumn?))

/-- The sockets in a table of `lsof`, whose first line is a header. -/
def scanFiles (text : String) : List Listener :=
  collect (((Text.lines text.toList).drop 1).filterMap (ofLine? fileColumn?))

/-- The sockets in what a program printed, or `none` where it could not be started. -/
def scanOutput (program : String) (table : String → List Listener) :
    Option Bytes → Except ScanError (List Listener)
  | none => .error (.notStarted program .notFound)
  | some bytes =>
    match Utf8.decode bytes with
    | .error fault => .error (.notText program fault)
    | .ok text => .ok (table text)

/-- The listening sockets of a machine, whose program for it printed `output`. -/
def scan (platform : Platform) (output : Option Bytes) : Except ScanError (List Listener) :=
  match platform with
  | .linux => scanOutput "ss" scanSockets output
  | .macOS => scanOutput "lsof" scanFiles output
  | .windows => .error .unsupported

end Listener

end SharedPorts
