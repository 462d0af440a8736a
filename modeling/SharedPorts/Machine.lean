import SharedPorts.Config.Store
import SharedPorts.Forward.Tunnel
import SharedPorts.Listener.Scan
import SharedPorts.Service.Operations

/-!
# `SharedPorts.Machine` — workspaces on this machine

A workspace can be a directory of this machine. Its shared ports are the ports on which the machine
listens, its levels are kept in the configuration, and forwards lead to its host. Every question is
answered from the configuration as it is at that moment; only a session remembers the workspace that it
was opened on.

## Contents
- **Errors.** `MachineError`, its wording, and `MachineError.cause`.
- **The machine.** `Machine`: its files, and the result of a scan.
- **Workspaces.** `Machine.choose`, `Machine.entry` and `Machine.fileOf`.
- **Sessions.** `Session`; `Session.sharedPorts`, `Session.setLevel` and `Session.tunnel`.
- **Services.** `Machine.backend` and `Machine.service`.
-/

namespace SharedPorts

/-! ## Errors -/

/-- Why something fails on this machine. -/
inductive MachineError
  | config (error : ConfigError)
  | scan (error : ScanError)
  | system (error : SystemError)
  | unknownWorkspace (name : String)
  | severalWorkspaces (names : List String)
  | portRange (port : Int)
  | emptyLevel (port : Port)
  deriving DecidableEq, Repr

/-- What an error says. -/
def MachineError.message : MachineError → String
  | .config e => e.message
  | .scan e => e.message
  | .system e => e.message
  | .unknownWorkspace name => s!"workspace {name} not found"
  | .severalWorkspaces names =>
    "multiple workspaces available, choose one of: " ++ ", ".intercalate names
  | .portRange port => s!"invalid argument: port {port} is outside 0-65535"
  | .emptyLevel port => s!"invalid argument: empty privacy level for port {port}"

/-- An error as somebody else's cause. -/
def MachineError.cause (e : MachineError) : Cause := { message := e.message }

/-! ## The machine -/

/-- What workspaces on this machine depend on: its files, and what a scan for listening ports comes to. -/
structure Machine where
  files : FileSystem
  listening : Except ScanError (List Listener) := .ok []

namespace Machine

/-! ## Workspaces -/

/-- Choose among workspaces by a name; the empty name chooses the only one. -/
def chooseFrom (workspaces : List Entry) (name : String) : Except (ChoiceError MachineError) String :=
  if workspaces.isEmpty then .error .noWorkspaces
  else if name = "" then
    match workspaces with
    | [only] => .ok only.name
    | several => .error (.other (.severalWorkspaces (several.map (·.name))))
  else
    match workspaces.find? (·.name == name) with
    | some e => .ok e.name
    | none => .error (.other (.unknownWorkspace name))

/-- Choose a workspace of the configuration. -/
def choose (m : Machine) (store : Store) (name : String) : Except (ChoiceError MachineError) String :=
  match store.workspaces m.files with
  | .error e => .error (.other (.config e))
  | .ok workspaces => chooseFrom workspaces name

/-- The entry of a workspace. -/
def entry (m : Machine) (store : Store) (name : String) : Except MachineError Entry :=
  match store.find name m.files with
  | .error e => .error (.config e)
  | .ok none => .error (.unknownWorkspace name)
  | .ok (some e) => .ok e

/-- The content of a file below the root of a workspace, if there is such a file. -/
def fileOf (m : Machine) (store : Store) (name path : String) : Except MachineError (Option Bytes) :=
  match m.entry store name with
  | .error e => .error e
  | .ok e =>
    match m.files.contentOf ((Path.ofText e.root).join (.ofText path)) with
    | .ok bytes => .ok (some bytes)
    | .error .notFound => .ok none
    | .error e => .error (.system e)

end Machine

/-! ## Sessions -/

/-- A session on a workspace, as the workspace was when the session was opened. -/
structure Session where
  workspace : Entry
  deriving DecidableEq, Repr

/-- Open a session. -/
def Machine.connect (m : Machine) (store : Store) (name : String) : Except MachineError Session :=
  Session.mk <$> m.entry store name

namespace Session

/-- The ports on which the machine listens, with the levels that the configuration has now. -/
def sharedPorts (s : Session) (store : Store) (m : Machine) :
    Except MachineError (List SharedPort) :=
  match m.listening with
  | .error e => .error (.scan e)
  | .ok listeners =>
    match store.find s.workspace.name m.files with
    | .error e => .error (.config e)
    | .ok found =>
      let levels := (found.map (·.privacy)).getD .empty
      .ok (listeners.map fun l => ⟨l.port, (levels.get? l.port).getD defaultLevel⟩)

/-- Set the level of a port in the configuration. -/
def setLevel (s : Session) (store : Store) (port : Int) (level : String) (m : Machine) :
    Except MachineError Unit × Machine :=
  match Port.ofInt? port with
  | none => (.error (.portRange port), m)
  | some p =>
    if level = "" then (.error (.emptyLevel p), m)
    else
      let (result, files) := store.setLevel s.workspace.name p level m.files
      (result.mapError .config, { m with files })

/-- The tunnel to a port of the workspace's host. It accepts connections as long as it is let to. -/
def tunnel (s : Session) (name : String) (remote : Int) : Tunnel :=
  { name, host := s.workspace.host, port := remote }

/-- What closing a session logs. -/
def closing (s : Session) : Note := ⟨.debug, s!"Closing session to {s.workspace.name}"⟩

end Session

/-! ## Services -/

namespace Machine

/-- What reading a file comes to for a service. -/
def reading (result : Except MachineError (Option Bytes)) : Reading :=
  match result with
  | .ok (some bytes) => .found bytes
  | .ok none => .missing
  | .error e => .fails e.cause

/-- The collaborators of a service on this machine. A file that is here has been read by the time at which
    the machine has told its ports. -/
def backend (store : Store) : Backend Machine Session where
  resolve name m := { value := (m.choose store name).mapError (·.map (·.cause)), state := m }
  connect name m := { value := (m.connect store name).mapError (·.cause), state := m }
  sharedPorts s m := { value := (s.sharedPorts store m).mapError (·.cause), state := m }
  setLevel s port level m :=
    let (result, m) := s.setLevel store port level m
    { value := result.mapError (·.cause), state := m }
  forwarder s name remote m := { value := (s.tunnel name remote).forwarder, state := m }
  close s m := { value := .ok (), state := m, log := [s.closing] }
  labels name m := { reading := reading (m.fileOf store name PortLabels.path), pace := .ahead }

/-- A service on this machine with the settings of a configuration. `owns` says which addresses the
    machine has, and so can listen on. -/
def service (store : Store) (owns : IpAddress → Bool) (c : Config) : Service Machine Session where
  backend := backend store
  previewDomain := c.previewDomain
  busy := fun _ => if owns c.bindAddress then none else some .addressNotAvailable

end Machine

end SharedPorts
