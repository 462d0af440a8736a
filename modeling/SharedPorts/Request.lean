import SharedPorts.Port
import SharedPorts.Text.Blank
import SharedPorts.Text.Quoted

/-!
# `SharedPorts.Request` — what a user asks for

A change of privacy is asked for as `port:level`, a forward as `remote:local`. A list of such requests is
taken as a whole: the first malformed one is reported, and then nothing is done.

## Contents
- **Requests.** `LevelRequest` and `ForwardRequest`.
- **Errors.** `RequestError` and its wording.
- **Reading.** `LevelRequest.parse`, `ForwardRequest.parse`, and the same for lists.
-/

namespace SharedPorts

/-! ## Requests -/

/-- The level that a port is to have. -/
structure LevelRequest where
  port : Int
  level : String
  deriving DecidableEq, Repr

/-- A remote port, and the local port that leads to it. -/
structure ForwardRequest where
  remote : Int
  localPort : Port
  deriving DecidableEq, Repr

/-- How a forward is shown. -/
def ForwardRequest.text (r : ForwardRequest) : String := s!"remote {r.remote} <=> local {r.localPort}"

/-! ## Errors -/

/-- What the number in a request stands for. -/
inductive PortRole
  | privacy
  | remote
  | localSide
  deriving DecidableEq, Repr

/-- The word for a role. -/
def PortRole.word : PortRole → String
  | .privacy => "privacy"
  | .remote => "remote"
  | .localSide => "local"

/-- How a request is malformed. -/
inductive RequestError
  | privacyForm (spec : String)
  | pairForm (spec : String)
  | number (role : PortRole) (field : String) (fault : Integer.Fault)
  | localRange (port : Int)
  deriving DecidableEq, Repr

/-- What an error says. -/
def RequestError.message : RequestError → String
  | .privacyForm spec => s!"invalid port privacy format for {Text.quoted spec}"
  | .pairForm spec => s!"port pair {Text.quoted spec} is not valid"
  | .number role field fault =>
    s!"invalid {role.word} port {Text.quoted field}: {fault.message}"
  | .localRange port => s!"local port {port} is outside 0-65535"

/-! ## Reading -/

/-- The fields of a request, which colons separate. -/
def requestFields (spec : String) : List String :=
  (Text.fields ':' spec.toList).map String.ofList

/-- The number in a field. -/
def parsePort (role : PortRole) (field : String) : Except RequestError Int :=
  (Integer.readWide field).mapError (.number role field)

/-- The local port in a field. -/
def parseLocalPort (field : String) : Except RequestError Port := do
  let number ← parsePort .localSide field
  match Port.ofInt? number with
  | some port => return port
  | none => throw (.localRange number)

/-- Read a request for a level: exactly two fields. -/
def LevelRequest.parse (spec : String) : Except RequestError LevelRequest :=
  match requestFields spec with
  | [port, level] => (⟨·, level⟩) <$> parsePort .privacy port
  | _ => .error (.privacyForm spec)

/-- Read a request for a forward: at least two fields, of which only two count. -/
def ForwardRequest.parse (spec : String) : Except RequestError ForwardRequest :=
  match requestFields spec with
  | remote :: localField :: _ => do
    let remote ← parsePort .remote remote
    let localPort ← parseLocalPort localField
    return ⟨remote, localPort⟩
  | _ => .error (.pairForm spec)

/-- Read requests for levels, up to the first malformed one. -/
def LevelRequest.parseAll (specs : List String) : Except RequestError (List LevelRequest) :=
  specs.mapM LevelRequest.parse

/-- Read requests for forwards, up to the first malformed one. -/
def ForwardRequest.parseAll (specs : List String) : Except RequestError (List ForwardRequest) :=
  specs.mapM ForwardRequest.parse

end SharedPorts
