import SharedPorts.PortLabels
import SharedPorts.Request

/-!
# `SharedPorts.Listing` — the rows of a listing

A session reports its shared ports; a row adds the label and the address under which the port can be
opened in a browser.

## Contents
- `SharedPort`, a port and its level.
- `browseUrl`, `ListingRow`, and the rows of a listing.
-/

namespace SharedPorts

/-- A port that a session shares. -/
structure SharedPort where
  port : Port
  privacy : String
  deriving DecidableEq, Repr

/-- The level of a port that nobody has set a level for. -/
def defaultLevel : String := "private"

/-- The domain of browse addresses, unless another is chosen. -/
def defaultDomain : String := "githubpreview.dev"

/-- The address of a port of a workspace. -/
def browseUrl (workspace : String) (port : Port) (domain : String) : String :=
  s!"https://{workspace}-{port}.{domain}/"

/-- A row of a listing. -/
structure ListingRow where
  label : String
  port : Port
  privacy : String
  browseUrl : String
  deriving DecidableEq, Repr

/-- The row of a shared port; a port without a label has an empty one. -/
def ListingRow.of (labels : PortLabels) (workspace domain : String) (p : SharedPort) : ListingRow :=
  ⟨(labels.label? p.port).getD "", p.port, p.privacy, SharedPorts.browseUrl workspace p.port domain⟩

/-- One row for each shared port, in the order of the ports. -/
def listingRows (labels : PortLabels) (workspace domain : String) (ports : List SharedPort) :
    List ListingRow :=
  ports.map (ListingRow.of labels workspace domain)

end SharedPorts
