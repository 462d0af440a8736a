import SharedPorts.Service.Run

/-!
# `SharedPorts.Forward.Tunnel` — forwarding to a host and port

A forwarder of this machine leads every connection that it accepts to a host and port, until it is
cancelled, or the system fails to accept a connection. A remote port that is no port number at all is
refused before anything is accepted.

## Contents
- **Errors.** `TunnelError` and its wording.
- **Forwarders.** `Tunnel`, its `target`, its `refusal?`, and `Tunnel.forwarder`.
- **Connections.** `Tunnel.relay`, what a client reads back; `Tunnel.lastError`.
-/

namespace SharedPorts

/-! ## Errors -/

/-- Why a forwarder ends. -/
inductive TunnelError
  | cancelled (name : String)
  | invalidPort (name : String) (port : Int)
  | accept (name : String) (error : SystemError)
  deriving DecidableEq, Repr

/-- What an error says. -/
def TunnelError.message : TunnelError → String
  | .cancelled name => s!"port forward {name} cancelled"
  | .invalidPort name port => s!"port forward {name}: remote port {port} is outside 0-65535"
  | .accept name _ => s!"port forward {name} stopped accepting connections"

/-- What the errors under an error say. -/
def TunnelError.causes : TunnelError → List String
  | .accept _ error => [error.message]
  | .cancelled _ | .invalidPort .. => []

/-- An error as somebody else's cause. -/
def TunnelError.cause (e : TunnelError) : Cause := { message := e.message, under := e.causes }

/-! ## Forwarders -/

/-- A forwarder to a host and port, and when and why accepting connections will fail, if it does. -/
structure Tunnel where
  name : String
  host : String
  port : Int
  fault : Option (Nat × SystemError) := none
  deriving DecidableEq, Repr

namespace Tunnel

/-- Where connections are led to. -/
def target (f : Tunnel) : String := s!"{f.host}:{f.port}"

/-- Why a forwarder does not serve at all. -/
def refusal? (f : Tunnel) : Option TunnelError :=
  match Port.ofInt? f.port with
  | some _ => none
  | none => some (.invalidPort f.name f.port)

/-- A forwarder as a group of forwards sees it: it ends by itself where it refuses to serve, and where it
    fails to accept connections. -/
def forwarder (f : Tunnel) : Forwarder where
  refusal := f.refusal?.map fun e => .stops e.cause
  script := f.fault.map fun (time, error) => (time, .stops (TunnelError.accept f.name error).cause)
  onCancel := (TunnelError.cancelled f.name).cause
  farewell := [⟨.info, s!"Port forward {f.name} stopped"⟩]

/-! ## Connections -/

/-- What a client reads back after sending something and closing its side. `answer` is what the target
    replies, if it can be reached; otherwise the connection is closed without a word. -/
def relay (answer : Option (Bytes → Bytes)) (sent : Bytes) : Bytes :=
  match answer with
  | none => []
  | some reply => reply sent

/-- The error that a forwarder ends with, at the latest when it is cancelled. -/
def lastError (f : Tunnel) : TunnelError :=
  match f.refusal?, f.fault with
  | some e, _ => e
  | none, some (_, error) => .accept f.name error
  | none, none => .cancelled f.name

end Tunnel

end SharedPorts
