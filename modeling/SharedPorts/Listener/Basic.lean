import SharedPorts.Port

/-!
# `SharedPorts.Listener.Basic` — listening sockets

A listening socket is written as `host:port`, where a host in brackets may hold colons of its own.

## Contents
- **Sockets.** `Listener`.
- **Cuts.** `splitAtBracket`, the first `]:` of a text, and `splitAtLastColon`, its last colon.
- **Addresses.** `Listener.parse?`.
-/

namespace SharedPorts

/-- A socket that listens on a port of this machine. -/
structure Listener where
  port : Port
  host : String
  deriving DecidableEq, Repr

namespace Listener

/-! ## Cuts -/

/-- What stands before and behind the first `]:`. -/
def splitAtBracket : List Char → Option (List Char × List Char)
  | [] => none
  | ']' :: ':' :: rest => some ([], rest)
  | c :: rest => (splitAtBracket rest).map fun (before, behind) => (c :: before, behind)

/-- What stands before and behind the last colon. -/
def splitAtLastColon : List Char → Option (List Char × List Char)
  | [] => none
  | c :: rest =>
    match splitAtLastColon rest with
    | some (before, behind) => some (c :: before, behind)
    | none => if c = ':' then some ([], rest) else none

/-! ## Addresses -/

/-- A host and the text of its port. A host in brackets ends at the first `]:` and keeps its brackets;
    any other host ends at the last colon, and an empty one stands for all hosts. -/
def split? : List Char → Option (String × List Char)
  | '[' :: rest =>
    (splitAtBracket rest).map fun (inner, port) => (String.ofList ('[' :: inner ++ [']']), port)
  | address =>
    (splitAtLastColon address).map fun (host, port) =>
      (if host.isEmpty then "*" else String.ofList host, port)

/-- Read an address. -/
def parse? (address : List Char) : Option Listener := do
  let (host, port) ← split? address
  let port ← Port.parse? port
  return ⟨port, host⟩

end Listener

end SharedPorts
