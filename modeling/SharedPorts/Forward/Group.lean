import SharedPorts.Service.Run

/-!
# `SharedPorts.Forward.Group` — forwards that stand and fall together

The pairs of a group are forwarded at once, each by a task of its own, on one session. The first task to
end, for whatever reason, cancels all others, and its error is the group's. Tasks take their first turns
in the order of the pairs, and no task sees the end of another before all of them have had it. After that
the earliest event counts: a forwarder that ends by itself, or the caller's token.

## Contents
- **Tasks.** `Task` and `Ended`; the error and the name of a task.
- **Binding.** `Group.bindFault?`: a local port may be busy, or held by a task of the group.
- **First turns.** `Forwarder.firstEnd?` and `Group.start`.
- **Endings.** `Group.cancelAll`, `Group.stop`, and `Group.settle`, which leads to the end of every task.
- **The group.** `forwardTogether`.
-/

namespace SharedPorts

/-! ## Tasks -/

/-- A task that serves a pair; `index` is its place among the pairs. -/
structure Task where
  index : Nat
  pair : ForwardRequest
  forwarder : Forwarder
  deriving DecidableEq, Repr

/-- A task that has ended. -/
structure Ended where
  index : Nat
  pair : ForwardRequest
  ending : TaskEnd
  deriving DecidableEq, Repr

/-- The name of the forwarder of a remote port. -/
def forwardName (remote : Int) : String := s!"share-{remote}"

/-- The error that a task ends with. -/
def Ended.error (e : Ended) : ServiceError :=
  match e.ending with
  | .unbound cause => .bind e.pair.localPort cause
  | .stopped cause | .cancelled cause => .forward e.pair.remote cause
  | .panicked => .taskDied

/-- A group in the course of its run: the tasks that serve, in the order of the pairs, and those that
    have ended, in the order of their ends. -/
structure Group (σ : Type) where
  run : Run σ
  running : List Task := []
  ended : List Ended := []

namespace Group

variable {σ : Type}

/-! ## Binding -/

/-- The local ports that the group holds. -/
def held (g : Group σ) : List Port := g.running.map (·.pair.localPort)

/-- Why a local port cannot be bound: it is not free on this machine, or a task holds it. Port 0 stands
    for any free port. -/
def bindFault? (busy : Port → Option SystemError) (g : Group σ) (port : Port) : Option SystemError :=
  match busy port with
  | some e => some e
  | none => if port ≠ 0 ∧ port ∈ g.held then some .addressInUse else none

/-! ## First turns -/

/-- How a stop ends a task. -/
def endOfStop : Stop → TaskEnd
  | .stops cause => .stopped cause
  | .panics => .panicked

/-- How a forwarder ends in its first turn, if it does, and what it logs then. Refusing comes before
    looking at the token, and the token before serving. -/
def firstEnd? (f : Forwarder) (fired : Bool) : Option (TaskEnd × List Note) :=
  match f.refusal with
  | some how => some (endOfStop how, [])
  | none =>
    if fired then some (.cancelled f.onCancel, f.farewell)
    else
      match f.script with
      | some (0, stop) => some (endOfStop stop, [])
      | _ => none

/-- The first turn of a task: bind the port, log the pair, create the forwarder and start it. -/
def start (busy : Port → Option SystemError) (create : String → Int → σ → Reply σ Forwarder)
    (g : Group σ) (index : Nat) (pair : ForwardRequest) : Group σ :=
  match g.bindFault? busy pair.localPort with
  | some e => { g with ended := g.ended ++ [⟨index, pair, .unbound e⟩] }
  | none =>
    let name := forwardName pair.remote
    let (forwarder, run) :=
      (g.run.write [.forwarding pair]).call (.forwarder name pair.remote) (create name pair.remote)
    match firstEnd? forwarder run.fired with
    | some (ending, log) =>
      { g with run := run.write (log.map .note), ended := g.ended ++ [⟨index, pair, ending⟩] }
    | none => { g with run, running := g.running ++ [⟨index, pair, forwarder⟩] }

/-- The first turns of the tasks of some pairs, the first of which has a given index. -/
def startAll (busy : Port → Option SystemError) (create : String → Int → σ → Reply σ Forwarder) :
    Group σ → Nat → List ForwardRequest → Group σ
  | g, _, [] => g
  | g, index, pair :: pairs => startAll busy create (g.start busy create index pair) (index + 1) pairs

/-! ## Endings -/

/-- Log the errors of ended tasks that are not the group's. -/
def discard (g : Group σ) (others : List Ended) : Group σ :=
  { g with run := g.run.write (others.map fun e => .discarded e.error) }

/-- A cancelled task. -/
def cancelled (t : Task) : Ended := ⟨t.index, t.pair, .cancelled t.forwarder.onCancel⟩

/-- Cancel the tasks that still run; they end in the order of the pairs. -/
def cancelAll (g : Group σ) : Group σ :=
  { run := g.run.write (g.running.flatMap fun t => t.forwarder.farewell.map .note)
    running := []
    ended := g.ended ++ g.running.map cancelled }

/-- Let a task end by itself. -/
def stop (g : Group σ) (t : Task) (how : Stop) : Group σ :=
  { g with
    running := g.running.filter (·.index != t.index)
    ended := g.ended ++ [⟨t.index, t.pair, endOfStop how⟩] }

/-- Cancel what still runs, after some tasks have ended: the first end is the group's, the errors of all
    others are dropped. -/
def unwind (g : Group σ) : Group σ :=
  let g' := (g.discard (g.ended.drop 1)).cancelAll
  if g.ended.isEmpty then g'.discard (g'.ended.drop 1) else g'.discard (g.running.map cancelled)

/-- The task that is the first to end by itself, and when and how it does. -/
def firstStop? (running : List Task) : Option (Task × Nat × Stop) :=
  running.foldl
    (fun best t =>
      match t.forwarder.script, best with
      | none, _ => best
      | some (time, how), none => some (t, time, how)
      | some (time, how), some (_, least, _) => if time < least then some (t, time, how) else best)
    none

/-- Go on from the first turns to the end of every task. `none` means that nothing will ever happen. -/
def settle (g : Group σ) : Option (Group σ) :=
  if !g.ended.isEmpty || g.running.isEmpty || g.run.fired then some g.unwind
  else
    let fire : Group σ := { g with run := { g.run with fired := true } }
    match firstStop? g.running, g.run.deadline with
    | some (t, time, how), some deadline =>
      if time ≤ deadline then some (g.stop t how).unwind else some fire.unwind
    | some (t, _, how), none => some (g.stop t how).unwind
    | none, some _ => some fire.unwind
    | none, none => none

/-- The forwarders that were created, in the order of the pairs, and how they ended. -/
def forwards (g : Group σ) : List (String × TaskEnd) :=
  (g.ended.mergeSort (·.index ≤ ·.index)).filterMap fun e =>
    match e.ending with
    | .unbound _ => none
    | ending => some (forwardName e.pair.remote, ending)

end Group

/-! ## The group -/

/-- Forward some pairs until one of the forwards ends, and all others have ended with it. -/
def forwardTogether {σ : Type} (busy : Port → Option SystemError)
    (create : String → Int → σ → Reply σ Forwarder) (pairs : List ForwardRequest) (r : Run σ) :
    Outcome Unit × Run σ :=
  let g : Group σ := Group.startAll busy create { run := r } 0 pairs
  match g.settle with
  | none => (.waiting, g.run)
  | some g =>
    let r := { g.run with forwards := g.forwards }
    match g.ended with
    | [] => (.done (), r)
    | e :: _ => (.failed e.error, r)

end SharedPorts
