import SharedPorts.Proofs.Attempt
import SharedPorts.Proofs.Service.Trace

/-!
# `SharedPorts.Proofs.Service.Sessions` — opening a session and closing it

Before its work an operation chooses a workspace and opens a session on it, and behind its work it closes the
session. What these stages add to a run is the same whatever the work is.

## Contents
- **Stages.** `Service.afterResolve`, `Service.afterConnect` and `Service.Opens`.
- **Closing.** `finish_eq`, what closing adds, and `finish_leads`, its trace.
- **Entering.** `Service.Enters`, that a session is entered, and what the operation then comes to.
-/

namespace SharedPorts

variable {σ S α : Type}

/-- Whether an operation has come to an end. -/
def Outcome.returned : Outcome α → Bool
  | .done _ | .failed _ => true
  | .waiting => false

theorem Outcome.returned_eq_false_iff (outcome : Outcome α) :
    outcome.returned = false ↔ outcome = .waiting := by
  cases outcome <;> simp [Outcome.returned]

namespace Service

/-! ## Stages -/

/-- A run once a workspace was asked for. -/
def afterResolve (s : Service σ S) (name : String) (r : Run σ) : Run σ :=
  (r.call (.resolve name) (s.backend.resolve name)).2

theorem resolve_eq (s : Service σ S) (name : String) (r : Run σ) :
    s.resolve name r =
      ((s.backend.resolve name r.state).value.mapError .ofChoice, s.afterResolve name r) := rfl

theorem resolve_of_ok {s : Service σ S} {name workspace : String} {r : Run σ}
    (h : (s.backend.resolve name r.state).value = .ok workspace) :
    s.resolve name r = (.ok workspace, s.afterResolve name r) := by
  rw [s.resolve_eq, h]
  rfl

/-- A run once a session was asked for. -/
def afterConnect (s : Service σ S) (workspace : String) (r : Run σ) : Run σ :=
  (r.call (.connect workspace) (s.backend.connect workspace)).2

/-- A session on a workspace is opened: the answer is a session, and it came before the token fired. -/
def Opens (s : Service σ S) (workspace : String) (session : S) (r : Run σ) : Prop :=
  (s.backend.connect workspace r.state).inTime? = some (.ok session)

/-! ## Closing -/

/-- What an operation comes to once its session was closed: a failure to close counts only where nothing
    failed before it. -/
def closed : Outcome α → Except Cause Unit → Outcome α
  | .done _, .error cause => .failed (.close cause)
  | outcome, _ => outcome

/-- What is logged of closing a session: that it failed, where something failed before it. -/
def closingLines : Outcome α → Except Cause Unit → List LogLine
  | .failed _, .error cause => [.closeFailed cause]
  | _, _ => []

theorem closed_returned {outcome : Outcome α} (h : outcome.returned = true) (result : Except Cause Unit) :
    (closed outcome result).returned = true := by
  cases outcome with
  | waiting => exact absurd h (by simp [Outcome.returned])
  | done value => cases result <;> rfl
  | failed e => cases result <;> rfl

/-- A success stands behind a success only, with the same value. -/
theorem eq_of_closed_eq_done {value value' : α} {result : Except Cause Unit}
    (h : closed (.done value) result = .done value') : value = value' := by
  cases result with
  | error cause => exact absurd h (by simp [closed])
  | ok _ => exact Outcome.done.inj h

/-- **Closing** is one call behind the body of an operation that comes to an end. -/
theorem finish_eq (s : Service σ S) (session : S) {outcome : Outcome α} (h : outcome.returned = true)
    (r : Run σ) :
    s.finish session outcome r =
      (closed outcome (s.backend.close session r.state).value,
        ((r.call .close (s.backend.close session)).2).write
          (closingLines outcome (s.backend.close session r.state).value)) := by
  have hcall : r.call .close (s.backend.close session) =
      ((s.backend.close session r.state).value, (r.call .close (s.backend.close session)).2) := rfl
  cases outcome with
  | waiting => exact absurd h (by simp [Outcome.returned])
  | done value =>
    unfold finish
    rw [hcall]
    cases (s.backend.close session r.state).value with
    | ok _ => exact Prod.ext rfl (Run.write_nil _).symm
    | error cause => exact Prod.ext rfl (Run.write_nil _).symm
  | failed e =>
    unfold finish
    rw [hcall]
    cases (s.backend.close session r.state).value with
    | ok _ => exact Prod.ext rfl (Run.write_nil _).symm
    | error cause => rfl

/-- A failure is the result, whatever comes of closing. -/
theorem exists_finish_failed (s : Service σ S) (session : S) (e : ServiceError) (r : Run σ) :
    ∃ r', s.finish session (.failed e : Outcome α) r = (.failed e, r') := by
  refine ⟨_, Prod.ext ?_ rfl⟩
  rw [s.finish_eq session rfl]
  cases (s.backend.close session r.state).value <;> rfl

/-- **Closing** is the last call, and does not change whether an operation comes to an end. -/
theorem finish_leads (s : Service σ S) (session : S) (outcome : Outcome α) (r : Run σ) :
    (s.finish session outcome r).1.returned = outcome.returned ∧
      r.Leads (if outcome.returned then [⟨.close, r.fired⟩] else []) (s.finish session outcome r).2 := by
  cases h : outcome.returned with
  | false =>
    cases outcome with
    | waiting => exact ⟨rfl, .of_eq rfl id⟩
    | done value => exact absurd h (by simp [Outcome.returned])
    | failed e => exact absurd h (by simp [Outcome.returned])
  | true =>
    rw [s.finish_eq session h]
    refine ⟨closed_returned h _, ?_⟩
    exact (r.leads_call .close (s.backend.close session)).trans (Run.leads_write _ _)

/-! ## Entering -/

/-- A session on the workspace that `name` asks for is opened, and none of it too late. -/
structure Enters (s : Service σ S) (name : String) (r : Run σ) (workspace : String) (session : S) :
    Prop where
  resolved : (s.backend.resolve name r.state).value = .ok workspace
  unfired : (s.afterResolve name r).fired = false
  opened : s.Opens workspace session (s.afterResolve name r)

/-- The run that the work in a session starts from. -/
def entered (s : Service σ S) (name workspace : String) (r : Run σ) : Run σ :=
  s.afterConnect workspace (s.afterResolve name r)

/-- The work in a session starts behind a choice of workspace and the opening of the session. -/
theorem Enters.entered_calls {s : Service σ S} {name workspace : String} {session : S} {r : Run σ}
    (h : s.Enters name r workspace session) :
    (s.entered name workspace r).calls =
      r.calls ++ [⟨.resolve name, r.fired⟩, ⟨.connect workspace, false⟩] := by
  have hconnect : (s.entered name workspace r).calls =
      (s.afterResolve name r).calls ++ [⟨.connect workspace, (s.afterResolve name r).fired⟩] := rfl
  have hresolve : (s.afterResolve name r).calls = r.calls ++ [⟨.resolve name, r.fired⟩] := rfl
  rw [hconnect, hresolve, h.unfired, List.append_assoc]
  rfl

theorem Enters.resolve_eq {s : Service σ S} {name workspace : String} {session : S} {r : Run σ}
    (h : s.Enters name r workspace session) :
    s.resolve name r = (.ok workspace, s.afterResolve name r) :=
  resolve_of_ok h.resolved

theorem Enters.connect_eq {s : Service σ S} {name workspace : String} {session : S} {r : Run σ}
    (h : s.Enters name r workspace session) :
    s.connect workspace (s.afterResolve name r) = (.ok session, s.entered name workspace r) := by
  unfold connect Run.callUnlessFired
  rw [h.unfired, show (s.backend.connect workspace (s.afterResolve name r).state).inTime? = _ from h.opened]
  rfl

/-- One session is entered, if any. -/
theorem Enters.unique {s : Service σ S} {name workspace workspace' : String} {session session' : S}
    {r : Run σ} (h : s.Enters name r workspace session) (h' : s.Enters name r workspace' session') :
    workspace = workspace' ∧ session = session' := by
  obtain rfl := Except.ok.inj (h.resolved.symm.trans h'.resolved)
  have hopened : some (Except.ok session) = some (Except.ok session') := h.opened.symm.trans h'.opened
  exact ⟨rfl, Except.ok.inj (Option.some.inj hopened)⟩

/-- Nothing is done without a workspace. -/
theorem withSession_of_unresolved {s : Service σ S} {name : String} {e : ServiceError} {r r' : Run σ}
    (h : s.resolve name r = (.error e, r')) (work : String → S → Run σ → Outcome α × Run σ) :
    s.withSession name work r = (.failed e, r') := by
  unfold withSession
  rw [h]

/-- Nothing is done without a session. -/
theorem withSession_of_unopened {s : Service σ S} {name workspace : String} {e : ServiceError}
    {r r₁ r₂ : Run σ} (hr : s.resolve name r = (.ok workspace, r₁))
    (hc : s.connect workspace r₁ = (.error e, r₂)) (work : String → S → Run σ → Outcome α × Run σ) :
    s.withSession name work r = (.failed e, r₂) := by
  unfold withSession
  rw [hr]
  dsimp only
  rw [hc]

/-- **In a session that is entered** the work is done, and then the session is closed. -/
theorem Enters.withSession_eq {s : Service σ S} {name workspace : String} {session : S} {r : Run σ}
    (h : s.Enters name r workspace session) (work : String → S → Run σ → Outcome α × Run σ) :
    s.withSession name work r =
      s.finish session (work workspace session (s.entered name workspace r)).1
        (work workspace session (s.entered name workspace r)).2 := by
  unfold withSession
  rw [h.resolve_eq]
  dsimp only
  rw [h.connect_eq]

/-- A session is entered where both stages before it succeed. -/
theorem enters_of_stages {s : Service σ S} {name workspace : String} {session : S} {r r₁ r₂ : Run σ}
    (hr : s.resolve name r = (.ok workspace, r₁)) (hc : s.connect workspace r₁ = (.ok session, r₂)) :
    s.Enters name r workspace session ∧ r₂ = s.entered name workspace r := by
  rw [s.resolve_eq] at hr
  obtain ⟨hresolved, rfl⟩ := Prod.mk.inj hr
  unfold connect at hc
  cases hcall : (s.afterResolve name r).callUnlessFired (.connect workspace) (s.backend.connect workspace) with
  | mk result r' =>
    rw [hcall] at hc
    cases result with
    | none => exact absurd hc (by simp)
    | some answer =>
      obtain ⟨hopened, rfl⟩ := Prod.mk.inj hc
      obtain ⟨hf, hv, rfl⟩ := Run.callUnlessFired_eq_some hcall
      rw [mapError_eq_ok_iff.mp hopened] at hv
      exact ⟨⟨mapError_eq_ok_iff.mp hresolved, hf, hv⟩, rfl⟩

end Service

end SharedPorts
