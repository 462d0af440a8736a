import SharedPorts.Listing
import SharedPorts.Service.Error

/-!
# `SharedPorts.Service.Run` — collaborators, and the record of a run

A service does its work through collaborators: one chooses workspaces, one opens sessions, one reads a
repository. Each call has a result, changes the collaborators' state, and may be interrupted: the caller's
token may fire while it runs, before or after its result is there. A run records the calls made and the
lines logged, in their order.

## Contents
- **Log.** `Note`, what a collaborator logs, and `LogLine`, with its level and text.
- **Forwarders.** `Forwarder`, what serves a forwarded port, and how it ends.
- **Collaborators.** `Reply` and `Reply.inTime?`; `Reading`, `Pace` and `Fetch`; `Backend`.
- **Runs.** `Call`, `Begun`, `TaskEnd`, `Run`, `Run.call` and `Run.callUnlessFired`.
- **Outcomes.** `Outcome`: a run may also wait for ever.
-/

namespace SharedPorts

/-! ## Log -/

/-- The importance of a log line. -/
inductive Level
  | debug
  | info
  | warn
  deriving DecidableEq, Repr

/-- What a collaborator logs. -/
structure Note where
  level : Level
  text : String
  deriving DecidableEq, Repr

/-- A line of the log: a note of a collaborator, or what the service itself has to say. -/
inductive LogLine
  | note (n : Note)
  /-- A listing has begun. -/
  | loading
  /-- The labels of a listing are not known. -/
  | labelsMissing (error : LabelsError)
  /-- Nobody was left to take the labels that were fetched for a workspace. -/
  | labelsUnread (workspace : String)
  /-- A port has a new level. -/
  | nowScoped (spec : LevelRequest)
  /-- A pair of ports is being forwarded. -/
  | forwarding (pair : ForwardRequest)
  /-- Another forward's error is already the result. -/
  | discarded (error : ServiceError)
  /-- A session could not be closed after another failure. -/
  | closeFailed (cause : Cause)
  deriving DecidableEq, Repr

/-- The importance of a line. -/
def LogLine.level : LogLine → Level
  | .note n => n.level
  | .loading | .nowScoped _ | .forwarding _ => .info
  | .labelsMissing _ | .closeFailed _ => .warn
  | .discarded _ | .labelsUnread _ => .debug

/-- The text of a line. -/
def LogLine.text : LogLine → String
  | .note n => n.text
  | .loading => "Loading ports..."
  | .labelsMissing e => s!"Failed to get port names: {e.message}"
  | .labelsUnread workspace => s!"devcontainer metadata for {workspace} was not consumed"
  | .nowScoped spec => s!"Port {spec.port} is now {spec.level} scoped."
  | .forwarding pair => s!"Forwarding ports: {pair.text}"
  | .discarded e => s!"Discarding error from sibling forward: {e.message}"
  | .closeFailed cause => s!"Failed to close session: {cause.message}"

/-! ## Forwarders -/

/-- How a forwarder ends by itself. -/
inductive Stop
  | stops (cause : Cause)
  | panics
  deriving DecidableEq, Repr

/-- What serves a forwarded port: how it ends before it looks at the token, if it does; when and how it
    ends by itself behind that; and what it says when it is cancelled. -/
structure Forwarder where
  refusal : Option Stop := none
  script : Option (Nat × Stop) := none
  onCancel : Cause
  farewell : List Note := []
  deriving DecidableEq, Repr

/-! ## Collaborators -/

/-- What a call of a collaborator comes to: a result, a state, whether the caller's token fired
    meanwhile, whether it did so while the result was still to come, and what was logged. -/
structure Reply (σ α : Type) where
  value : α
  state : σ
  fired : Bool := false
  late : Bool := false
  log : List Note := []

/-- The result of a call that is given up when the token fires, unless it came too late. -/
def Reply.inTime? {σ α : Type} (reply : Reply σ α) : Option α :=
  if reply.late then none else some reply.value

/-- What reading the devcontainer file of a repository comes to, where it comes to an end. -/
inductive Reading
  | found (bytes : Bytes)
  | missing
  | fails (cause : Cause)
  | dies
  deriving DecidableEq, Repr

/-- When a reading comes to an end. -/
inductive Pace
  /-- Before the token can cut it short, and before the labels are awaited or given up. -/
  | ahead
  /-- Some time after the labels are awaited. -/
  | after (time : Nat)
  | never
  deriving DecidableEq, Repr

/-- A fetch of labels, which goes on in the background of a listing. It is cut short when the token fires,
    or when the labels are given up, and it `lingers` if it is still there by then, with nobody left to
    take what it brings. -/
structure Fetch where
  reading : Reading
  pace : Pace := .after 0
  lingers : Bool := true
  deriving DecidableEq, Repr

/-- The collaborators of a service. `σ` is their state, `S` a session of theirs. -/
structure Backend (σ S : Type) where
  resolve : String → σ → Reply σ (Except (ChoiceError Cause) String)
  connect : String → σ → Reply σ (Except Cause S)
  sharedPorts : S → σ → Reply σ (Except Cause (List SharedPort))
  setLevel : S → Int → String → σ → Reply σ (Except Cause Unit)
  forwarder : S → String → Int → σ → Reply σ Forwarder
  close : S → σ → Reply σ (Except Cause Unit)
  labels : String → σ → Fetch

/-! ## Runs -/

/-- A call of a collaborator. -/
inductive Call
  | resolve (name : String)
  | connect (workspace : String)
  | list
  | update (port : Int) (level : String)
  | forwarder (name : String) (remote : Int)
  | close
  deriving DecidableEq, Repr

/-- How a call is shown. -/
def Call.text : Call → String
  | .resolve name => s!"resolve {name}"
  | .connect workspace => s!"connect {workspace}"
  | .list => "list"
  | .update port level => s!"update {port} {level}"
  | .forwarder name remote => s!"forwarder {name} {remote}"
  | .close => "close"

/-- A call, and whether the token had fired when it was begun. -/
structure Begun where
  call : Call
  fired : Bool
  deriving DecidableEq, Repr

/-- How a forwarding task ends. -/
inductive TaskEnd
  | unbound (cause : SystemError)
  | stopped (cause : Cause)
  | cancelled (cause : Cause)
  | panicked
  deriving DecidableEq, Repr

/-- A run of an operation: the collaborators' state, whether the caller's token has fired and at what
    time it will, and what has been done so far. -/
structure Run (σ : Type) where
  state : σ
  fired : Bool := false
  deadline : Option Nat := none
  calls : List Begun := []
  log : List LogLine := []
  forwards : List (String × TaskEnd) := []

namespace Run

variable {σ α : Type}

/-- Log some lines. -/
def write (r : Run σ) (lines : List LogLine) : Run σ := { r with log := r.log ++ lines }

/-- Make a call. -/
def call (r : Run σ) (c : Call) (act : σ → Reply σ α) : α × Run σ :=
  let reply := act r.state
  (reply.value,
    { r with
      state := reply.state
      fired := r.fired || reply.fired || reply.late
      calls := r.calls ++ [⟨c, r.fired⟩]
      log := r.log ++ reply.log.map .note })

/-- Make a call that is not begun once the token has fired, and is given up when it fires while the
    result is still to come. -/
def callUnlessFired (r : Run σ) (c : Call) (act : σ → Reply σ α) : Option α × Run σ :=
  if r.fired then (none, r) else ((act r.state).inTime?, (r.call c act).2)

end Run

/-! ## Outcomes -/

/-- How an operation ends, if it does. -/
inductive Outcome (α : Type)
  | done (value : α)
  | failed (error : ServiceError)
  | waiting
  deriving DecidableEq, Repr

end SharedPorts
