/-!
# `SharedPorts.Cause` — errors of somebody else

What a collaborator says when it fails is passed on as it is.
-/

namespace SharedPorts

/-- An error of somebody else: what it says, and what the errors under it say, outermost first. -/
structure Cause where
  message : String
  under : List String := []
  deriving DecidableEq, Repr

/-- The texts of a cause, outermost first. -/
def Cause.chain (c : Cause) : List String := c.message :: c.under

end SharedPorts
