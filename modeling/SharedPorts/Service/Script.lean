import SharedPorts.Service.Operations

/-!
# `SharedPorts.Service.Script` — collaborators that follow a script

A script says what every collaborator will answer and at which call the caller's token fires. It lets a
service be rehearsed without a network.

## Contents
- `Moment`: when the token fires.
- `Script`, its `Script.State`, and `Script.backend`.
-/

namespace SharedPorts

/-- When the caller's token fires: never by a call, before the operation, or during a call. -/
inductive Moment
  | never
  | before
  | resolve
  | connect
  | list
  | update (nth : Nat)
  | forwarder
  | close
  deriving DecidableEq, Repr

/-- What the collaborators answer. Updates and forwarders are looked up by the decimal text of their
    port. -/
structure Script where
  workspaces : List String := []
  resolveError : Option String := none
  connectError : Option String := none
  queryError : Option String := none
  closeError : Option String := none
  updateErrors : List (String × String) := []
  contents : Fetch := { reading := .missing }
  forwarders : List (String × Nat × Stop) := []
  moment : Moment := .never

/-- What changes while a script is followed: the shared ports, and how many updates were asked for. -/
structure Script.State where
  ports : List SharedPort
  updates : Nat := 0
  deriving DecidableEq, Repr

namespace Script

/-- An error with a given text, if there is one. -/
def failing {α : Type} (error : Option String) (value : α) : Except Cause α :=
  match error with
  | some text => .error { message := text }
  | none => .ok value

/-- The answer to a choice of workspace. -/
def resolve (s : Script) (name : String) : Except (ChoiceError Cause) String :=
  match s.resolveError with
  | some text => .error (.other { message := text })
  | none =>
    if s.workspaces.isEmpty then .error .noWorkspaces
    else if s.workspaces.contains name then .ok name
    else .error (.other { message := s!"unknown workspace {name}" })

/-- The shared ports after a level was set. -/
def setLevel (ports : List SharedPort) (port : Int) (level : String) : List SharedPort :=
  ports.map fun p => if (p.port.toNat : Int) = port then { p with privacy := level } else p

/-- The collaborators that follow a script. -/
def backend (s : Script) : Backend State Unit where
  resolve name state := { value := s.resolve name, state, fired := s.moment == .resolve }
  connect _ state := { value := failing s.connectError (), state, fired := s.moment == .connect }
  sharedPorts _ state :=
    { value := failing s.queryError state.ports, state, fired := s.moment == .list }
  setLevel _ port level state :=
    let nth := state.updates + 1
    let fired := s.moment == .update nth
    match s.updateErrors.lookup (toString port) with
    | some text => { value := .error { message := text }, state := { state with updates := nth }, fired }
    | none =>
      { value := .ok (), state := { ports := setLevel state.ports port level, updates := nth }, fired }
  forwarder _ _ remote state :=
    { value :=
        { script := s.forwarders.lookup (toString remote)
          onCancel := { message := "forward cancelled" } }
      state, fired := s.moment == .forwarder }
  close _ state := { value := failing s.closeError (), state, fired := s.moment == .close }
  labels _ _ := s.contents

end Script

end SharedPorts
