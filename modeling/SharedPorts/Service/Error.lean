import SharedPorts.Cause
import SharedPorts.Request
import SharedPorts.SystemError

/-!
# `SharedPorts.Service.Error` — why an operation on a workspace fails

An operation fails for the reason of the stage that failed first; what a collaborator said is kept as the
cause below it.

## Contents
- `ChoiceError`: no workspace could be chosen.
- `ServiceError`: its cases, `message` and `causes`.
-/

namespace SharedPorts

/-- Why no workspace could be chosen: there is none, or something else is the cause. -/
inductive ChoiceError (ε : Type)
  | noWorkspaces
  | other (cause : ε)
  deriving DecidableEq, Repr

/-- The same with another cause. -/
def ChoiceError.map {ε φ : Type} (f : ε → φ) : ChoiceError ε → ChoiceError φ
  | .noWorkspaces => .noWorkspaces
  | .other cause => .other (f cause)

/-- Why an operation on a workspace fails. -/
inductive ServiceError
  | noWorkspaces
  | invalidArgument (error : RequestError)
  | resolution (cause : Cause)
  | connection (cause : Cause)
  | query (cause : Cause)
  | update (port : Int) (cause : Cause)
  | close (cause : Cause)
  | bind (port : Port) (cause : SystemError)
  | forward (port : Int) (cause : Cause)
  | cancelled
  | taskDied
  deriving DecidableEq, Repr

namespace ServiceError

/-- What an error says. -/
def message : ServiceError → String
  | .noWorkspaces => "no workspaces available"
  | .invalidArgument error => s!"invalid argument: {error.message}"
  | .resolution _ => "error choosing workspace"
  | .connection _ => "error connecting to session"
  | .query _ => "error getting ports of shared servers"
  | .update port _ => s!"error updating privacy of port {port}"
  | .close _ => "error closing session"
  | .bind port _ => s!"failed to listen on local port {port}"
  | .forward port _ => s!"forwarding of remote port {port} stopped"
  | .cancelled => "operation cancelled"
  | .taskDied => "forwarding task died"

/-- What the errors under an error say, outermost first. -/
def causes : ServiceError → List String
  | .resolution cause | .connection cause | .query cause | .update _ cause | .close cause
  | .forward _ cause => cause.chain
  | .bind _ cause => [cause.message]
  | .noWorkspaces | .invalidArgument _ | .cancelled | .taskDied => []

/-- The error of a failed choice: that there is no workspace is never wrapped. -/
def ofChoice : ChoiceError Cause → ServiceError
  | .noWorkspaces => .noWorkspaces
  | .other cause => .resolution cause

end ServiceError

end SharedPorts
