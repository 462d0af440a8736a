import SharedPorts.Service.Run

/-!
# `SharedPorts.Service.Labels` — fetching labels in the background

The labels of a listing are fetched while the listing goes on. The fetch is a race between the reading of a
file and the token: whichever comes first is its result, and the result is kept until it is taken. So a
reading that has ended before the token fires keeps what it has brought, and one that has not is cancelled.

A listing that has its ports awaits the result. One that has failed before gives it up, which cuts the fetch
short as the token would. Nobody is told of this but the log, and only if the fetch has not ended by then.

## Contents
- `Reading.labels`: the labels in what was read.
- `Fetch.await`: the labels, unless the token came first.
- `Fetch.leftover`: what a fetch logs that was given up.
-/

namespace SharedPorts

/-- The labels in what was read. A repository without the file has no labels, and a reading that dies has
    no result. -/
def Reading.labels : Reading → Except LabelsError PortLabels
  | .found bytes => PortLabels.ofFile bytes
  | .missing => .ok .empty
  | .fails cause => .error (.fetch cause)
  | .dies => .error .abandoned

namespace Fetch

/-- The labels, and whether the token has fired at the end of the wait; `none` if the wait never ends.
    `fired` says whether the token has fired when the wait begins, and `deadline` when it will. -/
def await (f : Fetch) (fired : Bool) (deadline : Option Nat) :
    Option (Except LabelsError PortLabels × Bool) :=
  match f.pace with
  | .ahead => some (f.reading.labels, fired)
  | .after time =>
    if fired || deadline.any (· < time) then some (.error .cancelled, true)
    else some (f.reading.labels, false)
  | .never => if fired || deadline.isSome then some (.error .cancelled, true) else none

/-- What is logged of a fetch that was given up: a line if it has not ended by then. -/
def leftover (f : Fetch) (workspace : String) : List LogLine :=
  if f.lingers && f.pace != .ahead then [.labelsUnread workspace] else []

end Fetch

end SharedPorts
