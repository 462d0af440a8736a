import SharedPorts.Forward.Group
import SharedPorts.Service.Labels

/-!
# `SharedPorts.Service.Operations` — listing, levels and forwards

Every operation chooses a workspace, opens one session on it, does its work there and closes the session
again, whatever came of the work. The first failure is the result; a failure to close counts only when
nothing failed before it.

## Contents
- **Services.** `Service`: collaborators, and the settings of a user.
- **Sessions.** `Service.resolve`, `Service.connect`, `finish` and `Service.withSession`.
- **Bodies.** `Service.rows`, `Service.giveUp` and `Service.applyLevels`.
- **Operations.** `Service.list`, `Service.setLevels` and `Service.forward`.
-/

namespace SharedPorts

/-! ## Services -/

/-- A service: its collaborators, the domain of browse addresses, and which local ports cannot be bound
    at its address. -/
structure Service (σ S : Type) where
  backend : Backend σ S
  previewDomain : String := defaultDomain
  busy : Port → Option SystemError := fun _ => none

namespace Service

variable {σ S α : Type}

/-! ## Sessions -/

/-- Choose a workspace. -/
def resolve (s : Service σ S) (name : String) (r : Run σ) : Except ServiceError String × Run σ :=
  let (result, r) := r.call (.resolve name) (s.backend.resolve name)
  (result.mapError .ofChoice, r)

/-- Open a session on a workspace, unless the token has fired. -/
def connect (s : Service σ S) (workspace : String) (r : Run σ) : Except ServiceError S × Run σ :=
  match r.callUnlessFired (.connect workspace) (s.backend.connect workspace) with
  | (none, r) => (.error .cancelled, r)
  | (some result, r) => (result.mapError .connection, r)

/-- Close a session after its work: an earlier failure stays the result. -/
def finish (s : Service σ S) (session : S) (outcome : Outcome α) (r : Run σ) : Outcome α × Run σ :=
  match outcome with
  | .waiting => (.waiting, r)
  | .done value =>
    match r.call .close (s.backend.close session) with
    | (.ok (), r) => (.done value, r)
    | (.error cause, r) => (.failed (.close cause), r)
  | .failed e =>
    match r.call .close (s.backend.close session) with
    | (.ok (), r) => (.failed e, r)
    | (.error cause, r) => (.failed e, r.write [.closeFailed cause])

/-- Do some work in a session on a workspace. -/
def withSession (s : Service σ S) (name : String)
    (work : String → S → Run σ → Outcome α × Run σ) (r : Run σ) : Outcome α × Run σ :=
  match s.resolve name r with
  | (.error e, r) => (.failed e, r)
  | (.ok workspace, r) =>
    match s.connect workspace r with
    | (.error e, r) => (.failed e, r)
    | (.ok session, r) =>
      let (outcome, r) := work workspace session r
      s.finish session outcome r

/-! ## Bodies -/

/-- The rows of a workspace's shared ports. Their labels are awaited last, and only a warning is lost
    with them. -/
def rows (s : Service σ S) (workspace : String) (session : S) (r : Run σ) :
    Outcome (List ListingRow) × Run σ :=
  match (r.write [.loading]).callUnlessFired .list (s.backend.sharedPorts session) with
  | (none, r) => (.failed .cancelled, r)
  | (some (.error cause), r) => (.failed (.query cause), r)
  | (some (.ok ports), r) =>
    match (s.backend.labels workspace r.state).await r.fired r.deadline with
    | none => (.waiting, r)
    | some (.ok labels, fired) =>
      (.done (listingRows labels workspace s.previewDomain ports), { r with fired })
    | some (.error e, fired) =>
      (.done (listingRows .empty workspace s.previewDomain ports),
        ({ r with fired }).write [.labelsMissing e])

/-- Give up the labels of a workspace. Their fetch is a task of its own, and what it logs then has no fixed
    place among the last lines of an operation; here it comes behind them. -/
def giveUp (s : Service σ S) (workspace : String) (r : Run σ) : Run σ :=
  r.write ((s.backend.labels workspace r.state).leftover workspace)

/-- Set levels one after the other, up to the first failure. What has been set stays set. -/
def applyLevels (s : Service σ S) (session : S) : List LevelRequest → Run σ → Outcome Unit × Run σ
  | [], r => (.done (), r)
  | spec :: specs, r =>
    match r.callUnlessFired (.update spec.port spec.level)
        (s.backend.setLevel session spec.port spec.level) with
    | (none, r) => (.failed .cancelled, r)
    | (some (.error cause), r) => (.failed (.update spec.port cause), r)
    | (some (.ok ()), r) => s.applyLevels session specs (r.write [.nowScoped spec])

/-! ## Operations -/

/-- List the shared ports of a workspace, in the order in which the session reports them. Their labels are
    fetched from the moment at which the workspace is known; a listing that fails before it awaits them
    gives them up. -/
def list (s : Service σ S) (name : String) (r : Run σ) : Outcome (List ListingRow) × Run σ :=
  match s.resolve name r with
  | (.error e, r) => (.failed e, r)
  | (.ok workspace, r) =>
    match s.connect workspace r with
    | (.error e, r) => (.failed e, s.giveUp workspace r)
    | (.ok session, r) =>
      match s.rows workspace session r with
      | (.failed e, r) =>
        let (outcome, r) := s.finish session (.failed e) r
        (outcome, s.giveUp workspace r)
      | (outcome, r) => s.finish session outcome r

/-- Set the levels that `port:level` requests ask for. All of them are read before anything is done. -/
def setLevels (s : Service σ S) (name : String) (specs : List String) (r : Run σ) :
    Outcome Unit × Run σ :=
  match LevelRequest.parseAll specs with
  | .error e => (.failed (.invalidArgument e), r)
  | .ok specs => s.withSession name (fun _ session => s.applyLevels session specs) r

/-- Forward the pairs that `remote:local` requests ask for, until one of the forwards ends. -/
def forward (s : Service σ S) (name : String) (specs : List String) (r : Run σ) :
    Outcome Unit × Run σ :=
  match ForwardRequest.parseAll specs with
  | .error e => (.failed (.invalidArgument e), r)
  | .ok pairs =>
    s.withSession name (fun _ session => forwardTogether s.busy (s.backend.forwarder session) pairs) r

end Service

end SharedPorts
