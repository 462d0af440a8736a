import SharedPorts.Proofs.Service.Sessions

/-!
# `SharedPorts.Proofs.Service.Stages` — the first stage that fails decides an operation

An operation goes through five stages, and several of them may fail in one run: a close that fails behind a
body that has failed, a choice of workspace that would have failed behind a request that cannot be read.
`Operation.Fails` says of each stage on its own whether it fails and how, from what the collaborators
answer; `Operation.earliestWins` says that the first of them to fail decides the outcome. All this is about
operations in general, whatever they do in their session.

## Contents
- **Stages.** `Stage`, in their order.
- **Close failures.** `closeFailure?`, the lines that report a session that could not be closed, and
  `Run.closeFailures`.
- **Operations.** `Operation`, what operations have in common; `Operation.Fails`, `Operation.FailsFirst`
  and `Operation.Waits`; `Operation.Decides` and `Operation.EarliestWins`.
- **Stages by the code.** What each stage comes to where it fails; `Fails.unique`.
- **Outcomes.** `Operation.run_cases`, by whether the body is reached; `Operation.earliestWins`.
-/

namespace SharedPorts

variable {σ S α β : Type}

/-! ## Stages -/

/-- The stages of an operation, in their order. -/
inductive Stage
  | requests
  | choice
  | opening
  | body
  | closing
  deriving DecidableEq, Repr

/-- The place of a stage in the order. -/
def Stage.place : Stage → Nat
  | .requests => 0
  | .choice => 1
  | .opening => 2
  | .body => 3
  | .closing => 4

/-! ## Close failures -/

/-- Why a session could not be closed, in a line that reports this. -/
def closeFailure? : LogLine → Option Cause
  | .closeFailed cause => some cause
  | _ => none

/-- Such a line is a warning with the cause in it. -/
theorem warn_of_closeFailure? {line : LogLine} {cause : Cause} (h : closeFailure? line = some cause) :
    line.level = .warn ∧ line.text = s!"Failed to close session: {cause.message}" := by
  cases line with
  | closeFailed c =>
    obtain rfl := Option.some.inj h
    exact ⟨rfl, rfl⟩
  | note _ | loading | labelsMissing _ | labelsUnread _ | nowScoped _ | forwarding _ | discarded _ =>
    exact absurd h (by simp [closeFailure?])

/-- A collaborator does not report what came of closing. -/
theorem closeFailure?_notes (notes : List Note) :
    (notes.map LogLine.note).filterMap closeFailure? = [] := by
  rw [List.filterMap_map]
  exact List.filterMap_eq_nil_iff.mpr fun _ _ => rfl

namespace Run

/-- The failures to close that the log reports, in their order. -/
def closeFailures (r : Run σ) : List Cause := r.log.filterMap closeFailure?

theorem closeFailures_write (r : Run σ) (lines : List LogLine) :
    (r.write lines).closeFailures = r.closeFailures ++ lines.filterMap closeFailure? := by
  unfold closeFailures write
  rw [List.filterMap_append]

/-- Lines that report no such failure. -/
theorem closeFailures_write_of (r : Run σ) {lines : List LogLine} (h : lines.filterMap closeFailure? = []) :
    (r.write lines).closeFailures = r.closeFailures := by
  rw [closeFailures_write, h, List.append_nil]

theorem closeFailures_call (r : Run σ) (c : Call) (act : σ → Reply σ α) :
    (r.call c act).2.closeFailures = r.closeFailures := by
  have hlog : (r.call c act).2.log = r.log ++ (act r.state).log.map .note := rfl
  unfold closeFailures
  rw [hlog, List.filterMap_append, closeFailure?_notes, List.append_nil]

theorem closeFailures_callUnlessFired (r : Run σ) (c : Call) (act : σ → Reply σ α) :
    (r.callUnlessFired c act).2.closeFailures = r.closeFailures := by
  rcases r.callUnlessFired_cases c act with ⟨-, h⟩ | ⟨-, h⟩
  · rw [h]
  · rw [h]
    exact r.closeFailures_call c act

end Run

/-! ## Operations -/

/-- **An operation**: the requests it reads and the work it does in its session, and what is said of both
    without running them: which requests are malformed, how the work fails, and where it waits for
    ever. -/
structure Operation (σ S β α : Type) where
  service : Service σ S
  requests : Except RequestError β
  work : β → String → S → Run σ → Outcome α × Run σ
  malformed : RequestError → Prop
  fails : β → S → Run σ → ServiceError → Prop
  waits : β → String → S → Run σ → Prop
  malformed_iff : ∀ e, requests = .error e ↔ malformed e
  fails_iff : ∀ q workspace session r e, (work q workspace session r).1 = .failed e ↔ fails q session r e
  waits_iff : ∀ q workspace session r, (work q workspace session r).1 = .waiting ↔ waits q workspace session r
  /-- What came of closing is not for the work to report. -/
  silent : ∀ q workspace session r, (work q workspace session r).2.closeFailures = r.closeFailures

namespace Operation

/-- Read the requests, and then do the work in a session. -/
def run (o : Operation σ S β α) (name : String) (r : Run σ) : Outcome α × Run σ :=
  match o.requests with
  | .error e => (.failed (.invalidArgument e), r)
  | .ok q => o.service.withSession name (o.work q) r

/-- **A stage of an operation fails**, whatever came of the stages that it does not build on. -/
inductive Fails (o : Operation σ S β α) (name : String) (r : Run σ) : Stage → ServiceError → Prop
  | malformed {e : RequestError} (h : o.malformed e) : Fails o name r .requests (.invalidArgument e)
  /-- That there is no workspace is never wrapped. -/
  | noWorkspaces (h : (o.service.backend.resolve name r.state).value = .error .noWorkspaces) :
      Fails o name r .choice .noWorkspaces
  | unresolved {cause : Cause} (h : (o.service.backend.resolve name r.state).value = .error (.other cause)) :
      Fails o name r .choice (.resolution cause)
  | unopened {workspace : String} {e : ServiceError}
      (hr : (o.service.backend.resolve name r.state).value = .ok workspace)
      (ho : CallFails (o.service.afterResolve name r).fired
        (o.service.backend.connect workspace (o.service.afterResolve name r).state) .connection e) :
      Fails o name r .opening e
  | body {q : β} {workspace : String} {session : S} {e : ServiceError} (hq : o.requests = .ok q)
      (he : o.service.Enters name r workspace session)
      (hb : o.fails q session (o.service.entered name workspace r) e) :
      Fails o name r .body e
  /-- The session cannot be closed behind its work, whether or not the work has failed. -/
  | closing {q : β} {workspace : String} {session : S} {cause : Cause} (hq : o.requests = .ok q)
      (he : o.service.Enters name r workspace session)
      (hw : ¬ o.waits q workspace session (o.service.entered name workspace r))
      (hc : (o.service.backend.close session
        (o.work q workspace session (o.service.entered name workspace r)).2.state).value = .error cause) :
      Fails o name r .closing (.close cause)

/-- **The first failure**: a stage fails, and none before it does. -/
structure FailsFirst (o : Operation σ S β α) (name : String) (r : Run σ) (stage : Stage) (e : ServiceError) :
    Prop where
  fails : o.Fails name r stage e
  first : ∀ earlier, earlier.place < stage.place → ∀ e', ¬ o.Fails name r earlier e'

/-- The body of an operation is reached. -/
structure Reaches (o : Operation σ S β α) (name : String) (r : Run σ) (q : β) (workspace : String)
    (session : S) : Prop where
  read : o.requests = .ok q
  entered : o.service.Enters name r workspace session

/-- An operation waits for ever, which only its body can do. -/
def Waits (o : Operation σ S β α) (name : String) (r : Run σ) : Prop :=
  ∃ q workspace session, o.Reaches name r q workspace session ∧
    o.waits q workspace session (o.service.entered name workspace r)

/-- **What the stages leave to an outcome.** The error is that of the first stage to fail; the operation
    succeeds just where no stage fails, unless it waits for ever. -/
structure Decides (o : Operation σ S β α) (name : String) (r : Run σ) (outcome : Outcome α) : Prop where
  failed_iff : ∀ e, outcome = .failed e ↔ ∃ stage, o.FailsFirst name r stage e
  done_iff : (∃ value, outcome = .done value) ↔ (∀ stage e, ¬ o.Fails name r stage e) ∧ ¬ o.Waits name r
  waiting_iff : outcome = .waiting ↔ o.Waits name r

/-- **The earliest failure wins.** The stages decide the outcome as above. A failure to close behind a body
    that has failed is not the error but one warning, and there is no such warning otherwise. -/
structure EarliestWins (o : Operation σ S β α) (name : String) (r : Run σ) (result : Outcome α × Run σ) :
    Prop where
  decides : o.Decides name r result.1
  warned : ∃ causes, result.2.closeFailures = r.closeFailures ++ causes ∧ causes.length ≤ 1 ∧
    ∀ cause, cause ∈ causes ↔ (∃ e, o.Fails name r .body e) ∧ o.Fails name r .closing (.close cause)
  warns : ∀ line ∈ result.2.log, ∀ cause, closeFailure? line = some cause →
    line.level = .warn ∧ line.text = s!"Failed to close session: {cause.message}"

/-! ### Stages by the code -/

section Stages

variable {o : Operation σ S β α} {name : String} {r : Run σ} {q : β} {workspace : String} {session : S}

theorem fails_requests_iff (e : ServiceError) :
    o.Fails name r .requests e ↔ ∃ fault, o.requests = .error fault ∧ e = .invalidArgument fault := by
  constructor
  · intro hfails
    cases hfails with
    | malformed hm => exact ⟨_, (o.malformed_iff _).mpr hm, rfl⟩
  · rintro ⟨fault, hq, rfl⟩
    exact .malformed ((o.malformed_iff fault).mp hq)

theorem fails_choice_iff (e : ServiceError) :
    o.Fails name r .choice e ↔ (o.service.resolve name r).1 = .error e := by
  rw [o.service.resolve_eq]
  constructor
  · intro h
    cases h with
    | noWorkspaces hr => rw [hr]; rfl
    | unresolved hr => rw [hr]; rfl
  · intro h
    cases hr : (o.service.backend.resolve name r.state).value with
    | ok workspace =>
      rw [hr] at h
      exact absurd h nofun
    | error fault =>
      rw [hr] at h
      obtain rfl := Except.error.inj h
      cases fault with
      | noWorkspaces => exact .noWorkspaces hr
      | other cause => exact .unresolved hr

/-- Opening a session is a call that heeds the token. -/
theorem connect_eq (s : Service σ S) (workspace : String) (r : Run σ) :
    s.connect workspace r =
      (heeded .connection (r.callUnlessFired (.connect workspace) (s.backend.connect workspace)).1,
        (r.callUnlessFired (.connect workspace) (s.backend.connect workspace)).2) := by
  unfold Service.connect
  cases r.callUnlessFired (.connect workspace) (s.backend.connect workspace) with
  | mk result r' => cases result <;> rfl

theorem fails_opening_iff (e : ServiceError) :
    o.Fails name r .opening e ↔ ∃ workspace, (o.service.resolve name r).1 = .ok workspace ∧
      (o.service.connect workspace (o.service.afterResolve name r)).1 = .error e := by
  simp only [o.service.resolve_eq, connect_eq, heeded_eq_error_iff, mapError_eq_ok_iff]
  constructor
  · intro hfails
    cases hfails with
    | unopened hr ho => exact ⟨_, hr, ho⟩
  · rintro ⟨workspace, hr, ho⟩
    exact .unopened hr ho

/-- One session is entered, if any. -/
theorem Reaches.unique {q' : β} {workspace' : String} {session' : S} (h : o.Reaches name r q workspace session)
    (h' : o.Reaches name r q' workspace' session') : q = q' ∧ workspace = workspace' ∧ session = session' := by
  obtain rfl := Except.ok.inj (h.read.symm.trans h'.read)
  exact ⟨rfl, h.entered.unique h'.entered⟩

/-- Where the body is reached, both stages of entering a session have succeeded. -/
theorem Reaches.stages (h : o.Reaches name r q workspace session) :
    (o.service.resolve name r).1 = .ok workspace ∧
      (o.service.connect workspace (o.service.afterResolve name r)).1 = .ok session :=
  ⟨congrArg Prod.fst h.entered.resolve_eq, congrArg Prod.fst h.entered.connect_eq⟩

/-- Where the body is reached, no stage before it fails. -/
theorem Reaches.not_fails (h : o.Reaches name r q workspace session) {stage : Stage}
    (hs : stage.place < Stage.body.place) (e : ServiceError) : ¬ o.Fails name r stage e := by
  obtain ⟨hresolved, hconnected⟩ := h.stages
  intro hfails
  cases stage with
  | requests =>
    obtain ⟨fault, hq, -⟩ := (fails_requests_iff e).mp hfails
    exact absurd (h.read.symm.trans hq) (by simp)
  | choice => exact absurd (hresolved.symm.trans ((fails_choice_iff e).mp hfails)) (by simp)
  | opening =>
    obtain ⟨workspace', hr, hc⟩ := (fails_opening_iff e).mp hfails
    obtain rfl := Except.ok.inj (hresolved.symm.trans hr)
    exact absurd (hconnected.symm.trans hc) (by simp)
  | body => exact absurd hs (Nat.lt_irrefl _)
  | closing => exact absurd hs (by decide)

theorem Reaches.fails_body_iff (h : o.Reaches name r q workspace session) (e : ServiceError) :
    o.Fails name r .body e ↔
      (o.work q workspace session (o.service.entered name workspace r)).1 = .failed e := by
  rw [o.fails_iff]
  constructor
  · intro hfails
    cases hfails with
    | body hq he hb =>
      obtain ⟨rfl, rfl, rfl⟩ := h.unique ⟨hq, he⟩
      exact hb
  · exact .body h.read h.entered

theorem Reaches.waits_iff (h : o.Reaches name r q workspace session) :
    o.Waits name r ↔ (o.work q workspace session (o.service.entered name workspace r)).1 = .waiting := by
  rw [o.waits_iff]
  constructor
  · rintro ⟨q', workspace', session', h', hw⟩
    obtain ⟨rfl, rfl, rfl⟩ := h.unique h'
    exact hw
  · exact fun hw => ⟨q, workspace, session, h, hw⟩

/-- The session cannot be closed just if the work comes to an end and the answer to closing is an error. -/
theorem Reaches.fails_closing_iff (h : o.Reaches name r q workspace session) (e : ServiceError) :
    o.Fails name r .closing e ↔
      (o.work q workspace session (o.service.entered name workspace r)).1 ≠ .waiting ∧
      ∃ cause, e = .close cause ∧ (o.service.backend.close session
        (o.work q workspace session (o.service.entered name workspace r)).2.state).value = .error cause := by
  constructor
  · intro hfails
    cases hfails with
    | closing hq he hw hc =>
      obtain ⟨rfl, rfl, rfl⟩ := h.unique ⟨hq, he⟩
      exact ⟨fun hwaits => hw ((o.waits_iff ..).mp hwaits), _, rfl, hc⟩
  · rintro ⟨hw, cause, rfl, hc⟩
    exact .closing h.read h.entered (fun hwaits => hw ((o.waits_iff ..).mpr hwaits)) hc

/-- The last two stages build on a body that is reached. -/
theorem reaches_of_fails {stage : Stage} {e : ServiceError} (h : o.Fails name r stage e)
    (hs : Stage.body.place ≤ stage.place) : ∃ q workspace session, o.Reaches name r q workspace session := by
  cases h with
  | malformed _ | noWorkspaces _ | unresolved _ | unopened _ _ => exact absurd hs (by decide)
  | body hq he _ => exact ⟨_, _, _, hq, he⟩
  | closing hq he _ _ => exact ⟨_, _, _, hq, he⟩

/-- **A stage fails in one way.** -/
theorem Fails.unique {stage : Stage} {e e' : ServiceError} (h : o.Fails name r stage e)
    (h' : o.Fails name r stage e') : e = e' := by
  cases stage with
  | requests =>
    obtain ⟨fault, hq, rfl⟩ := (fails_requests_iff e).mp h
    obtain ⟨fault', hq', rfl⟩ := (fails_requests_iff e').mp h'
    rw [Except.error.inj (hq.symm.trans hq')]
  | choice =>
    exact Except.error.inj (((fails_choice_iff e).mp h).symm.trans ((fails_choice_iff e').mp h'))
  | opening =>
    obtain ⟨workspace, hr, hc⟩ := (fails_opening_iff e).mp h
    obtain ⟨workspace', hr', hc'⟩ := (fails_opening_iff e').mp h'
    obtain rfl := Except.ok.inj (hr.symm.trans hr')
    exact Except.error.inj (hc.symm.trans hc')
  | body =>
    obtain ⟨q, workspace, session, hreach⟩ := reaches_of_fails h (Nat.le_refl _)
    have hb := (hreach.fails_body_iff e).mp h
    have hb' := (hreach.fails_body_iff e').mp h'
    exact Outcome.failed.inj (hb.symm.trans hb')
  | closing =>
    obtain ⟨q, workspace, session, hreach⟩ := reaches_of_fails h (by decide)
    obtain ⟨-, cause, rfl, hc⟩ := (hreach.fails_closing_iff e).mp h
    obtain ⟨-, cause', rfl, hc'⟩ := (hreach.fails_closing_iff e').mp h'
    rw [Except.error.inj (hc.symm.trans hc')]

/-- **There is one first failure**, if any. -/
theorem FailsFirst.unique {stage stage' : Stage} {e e' : ServiceError} (h : o.FailsFirst name r stage e)
    (h' : o.FailsFirst name r stage' e') : e = e' := by
  have hplace : stage.place = stage'.place := by
    rcases Nat.lt_trichotomy stage.place stage'.place with hlt | heq | hlt
    · exact absurd h.fails (h'.first stage hlt e)
    · exact heq
    · exact absurd h'.fails (h.first stage' hlt e')
  have hstage : stage = stage' := by
    cases stage <;> cases stage' <;> first | rfl | exact absurd hplace (by decide)
  subst hstage
  exact h.fails.unique h'.fails

/-- An operation of which a stage fails does not wait for ever. -/
theorem Fails.not_waits {stage : Stage} {e : ServiceError} (h : o.Fails name r stage e) :
    ¬ o.Waits name r := by
  rintro ⟨q, workspace, session, hreach, hwaits⟩
  have hwaiting := hreach.waits_iff.mp ⟨q, workspace, session, hreach, hwaits⟩
  cases stage with
  | requests | choice | opening => exact hreach.not_fails (by decide) e h
  | body => exact absurd (((hreach.fails_body_iff e).mp h).symm.trans hwaiting) (by simp)
  | closing => exact ((hreach.fails_closing_iff e).mp h).1 hwaiting

/-! ### Outcomes -/

/-- A first failure decides the outcome. -/
theorem FailsFirst.decides {stage : Stage} {e : ServiceError} (h : o.FailsFirst name r stage e) :
    o.Decides name r (.failed e) where
  failed_iff := by
    intro e'
    constructor
    · intro he
      obtain rfl := Outcome.failed.inj he
      exact ⟨stage, h⟩
    · rintro ⟨stage', h'⟩
      rw [h.unique h']
  done_iff := by
    constructor
    · rintro ⟨value, hv⟩
      exact absurd hv (by simp)
    · rintro ⟨hnone, -⟩
      exact absurd h.fails (hnone stage e)
  waiting_iff := by
    constructor
    · intro hw
      exact absurd hw (by simp)
    · intro hw
      exact absurd hw h.fails.not_waits

/-- Where no stage fails, the operation succeeds or waits for ever. -/
theorem decides_of_not_fails (h : ∀ stage e, ¬ o.Fails name r stage e) {outcome : Outcome α}
    (hf : ∀ e, outcome ≠ .failed e) (hw : outcome = .waiting ↔ o.Waits name r) :
    o.Decides name r outcome where
  failed_iff := by
    intro e
    constructor
    · intro he
      exact absurd he (hf e)
    · rintro ⟨stage, hfirst⟩
      exact absurd hfirst.fails (h stage e)
  done_iff := by
    rw [← hw]
    cases outcome with
    | done value => exact ⟨fun _ => ⟨h, by simp⟩, fun _ => ⟨value, rfl⟩⟩
    | failed e => exact absurd rfl (hf e)
    | waiting => exact ⟨fun ⟨value, hv⟩ => absurd hv (by simp), fun hc => absurd rfl hc.2⟩
  waiting_iff := hw

/-- A stage that fails behind stages that do not is the first to fail. -/
theorem failsFirst_of_fails {stage : Stage} {e : ServiceError} (h : o.Fails name r stage e)
    (hrequests : Stage.requests.place < stage.place → ∃ q, o.requests = .ok q)
    (hchoice : Stage.choice.place < stage.place → ∃ workspace, (o.service.resolve name r).1 = .ok workspace)
    (hopening : stage.place ≤ Stage.opening.place) : o.FailsFirst name r stage e := by
  refine ⟨h, ?_⟩
  intro earlier hearlier e' hfails
  cases earlier with
  | requests =>
    obtain ⟨q, hq⟩ := hrequests hearlier
    obtain ⟨fault, hq', -⟩ := (fails_requests_iff e').mp hfails
    exact absurd (hq.symm.trans hq') (by simp)
  | choice =>
    obtain ⟨workspace, hr⟩ := hchoice hearlier
    exact absurd (hr.symm.trans ((fails_choice_iff e').mp hfails)) (by simp)
  | opening | body | closing =>
    exact absurd (Nat.lt_of_lt_of_le hearlier hopening) (by decide)

end Stages

/-- **An operation by its stages**: one of those before the body fails, and nothing is done behind it; or
    the body is reached, and the session is closed behind it. -/
theorem run_cases (o : Operation σ S β α) (name : String) (r : Run σ) :
    (∃ stage e, o.FailsFirst name r stage e ∧ stage.place < Stage.body.place ∧
      (o.run name r).1 = .failed e ∧ (o.run name r).2.closeFailures = r.closeFailures) ∨
    ∃ q workspace session, o.Reaches name r q workspace session ∧
      o.run name r = o.service.finish session
        (o.work q workspace session (o.service.entered name workspace r)).1
        (o.work q workspace session (o.service.entered name workspace r)).2 := by
  unfold run
  cases hq : o.requests with
  | error fault =>
    have hfails : o.Fails name r .requests (.invalidArgument fault) :=
      (fails_requests_iff _).mpr ⟨fault, hq, rfl⟩
    have hfirst := failsFirst_of_fails hfails (fun h => absurd h (by decide)) (fun h => absurd h (by decide))
      (by decide)
    exact Or.inl ⟨_, _, hfirst, by decide, rfl, rfl⟩
  | ok q =>
    dsimp only
    have hresolve : (o.service.afterResolve name r).closeFailures = r.closeFailures :=
      r.closeFailures_call _ _
    cases hr : o.service.resolve name r with
    | mk chosen r₁ =>
      obtain rfl : o.service.afterResolve name r = r₁ := (Prod.mk.inj hr).2
      have hchosen : (o.service.resolve name r).1 = chosen := by rw [hr]
      cases chosen with
      | error e =>
        have hfirst := failsFirst_of_fails ((fails_choice_iff e).mpr hchosen) (fun _ => ⟨q, hq⟩)
          (fun h => absurd h (by decide)) (by decide)
        rw [Service.withSession_of_unresolved hr]
        exact Or.inl ⟨_, e, hfirst, by decide, rfl, hresolve⟩
      | ok workspace =>
        cases hc : o.service.connect workspace (o.service.afterResolve name r) with
        | mk opened r₂ =>
          cases opened with
          | error e =>
            have hfails : o.Fails name r .opening e :=
              (fails_opening_iff e).mpr ⟨workspace, hchosen, by rw [hc]⟩
            have hfirst := failsFirst_of_fails hfails (fun _ => ⟨q, hq⟩) (fun _ => ⟨workspace, hchosen⟩)
              (by decide)
            have hsilent : r₂.closeFailures = r.closeFailures := by
              rw [connect_eq] at hc
              rw [← (Prod.mk.inj hc).2, Run.closeFailures_callUnlessFired, hresolve]
            rw [Service.withSession_of_unopened hr hc]
            exact Or.inl ⟨_, e, hfirst, by decide, rfl, hsilent⟩
          | ok session =>
            obtain ⟨henters, -⟩ := Service.enters_of_stages hr hc
            exact Or.inr ⟨q, workspace, session, ⟨hq, henters⟩, henters.withSession_eq (o.work q)⟩

/-- The failure to close that is reported behind some work. -/
theorem closingLines_causes (outcome : Outcome α) (result : Except Cause Unit) :
    ((Service.closingLines outcome result).filterMap closeFailure?).length ≤ 1 ∧
    ∀ cause, cause ∈ (Service.closingLines outcome result).filterMap closeFailure? ↔
      (∃ e, outcome = .failed e) ∧ result = .error cause := by
  cases outcome <;> cases result <;> simp [Service.closingLines, closeFailure?, eq_comm]

section Reached

variable {o : Operation σ S β α} {name : String} {r : Run σ} {q : β} {workspace : String} {session : S}

/-- **Where the body is reached**, what it comes to and what closing then comes to decide the outcome. -/
theorem Reaches.decides (h : o.Reaches name r q workspace session) :
    o.Decides name r (o.service.finish session
      (o.work q workspace session (o.service.entered name workspace r)).1
      (o.work q workspace session (o.service.entered name workspace r)).2).1 := by
  have hbody := h.fails_body_iff
  have hclosing := h.fails_closing_iff
  have hwaits := h.waits_iff
  generalize (o.work q workspace session (o.service.entered name workspace r)).1 = outcome
    at hbody hclosing hwaits ⊢
  generalize (o.work q workspace session (o.service.entered name workspace r)).2 = r'
    at hclosing ⊢
  cases outcome with
  | waiting =>
    refine decides_of_not_fails ?_ (fun e => by simp [Service.finish]) (by simp [Service.finish, hwaits])
    intro stage e hfails
    exact hfails.not_waits (hwaits.mpr rfl)
  | failed e =>
    rw [o.service.finish_eq session rfl]
    refine FailsFirst.decides ⟨(hbody e).mpr rfl, ?_⟩
    exact fun earlier hearlier e' => h.not_fails hearlier e'
  | done value =>
    rw [o.service.finish_eq session rfl]
    have hnobody : ∀ e, ¬ o.Fails name r .body e := by
      intro e hfails
      exact absurd ((hbody e).mp hfails) (by simp)
    cases hc : (o.service.backend.close session r'.state).value with
    | error cause =>
      refine FailsFirst.decides ⟨(hclosing _).mpr ⟨by simp, cause, rfl, hc⟩, ?_⟩
      intro earlier hearlier e'
      cases earlier with
      | requests | choice | opening => exact h.not_fails (by decide) e'
      | body => exact hnobody e'
      | closing => exact absurd hearlier (Nat.lt_irrefl _)
    | ok _ =>
      refine decides_of_not_fails ?_ (fun e => by simp [Service.closed])
        (by rw [hwaits]; simp [Service.closed])
      intro stage e hfails
      cases stage with
      | requests | choice | opening => exact h.not_fails (by decide) e hfails
      | body => exact hnobody e hfails
      | closing =>
        obtain ⟨-, cause, -, herror⟩ := (hclosing e).mp hfails
        exact absurd (hc.symm.trans herror) (by simp)

/-- **Where the body is reached**, a failure to close is reported just if the body has failed. -/
theorem Reaches.warned (h : o.Reaches name r q workspace session) :
    ∃ causes, (o.service.finish session
        (o.work q workspace session (o.service.entered name workspace r)).1
        (o.work q workspace session (o.service.entered name workspace r)).2).2.closeFailures =
      r.closeFailures ++ causes ∧ causes.length ≤ 1 ∧
    ∀ cause, cause ∈ causes ↔ (∃ e, o.Fails name r .body e) ∧ o.Fails name r .closing (.close cause) := by
  have hentered : (o.service.entered name workspace r).closeFailures = r.closeFailures :=
    (Run.closeFailures_call _ _ _).trans (Run.closeFailures_call _ _ _)
  have hsilent := (o.silent q workspace session (o.service.entered name workspace r)).trans hentered
  simp only [h.fails_body_iff, h.fails_closing_iff]
  generalize (o.work q workspace session (o.service.entered name workspace r)).1 = outcome
  generalize (o.work q workspace session (o.service.entered name workspace r)).2 = r' at hsilent ⊢
  by_cases hreturned : outcome.returned = true
  · obtain ⟨hlength, hmem⟩ :=
      closingLines_causes outcome (o.service.backend.close session r'.state).value
    refine ⟨_, ?_, hlength, ?_⟩
    · rw [o.service.finish_eq session hreturned, Run.closeFailures_write, Run.closeFailures_call, hsilent]
    · intro cause
      rw [hmem]
      constructor
      · rintro ⟨⟨e, rfl⟩, hc⟩
        exact ⟨⟨e, rfl⟩, by simp, cause, rfl, hc⟩
      · rintro ⟨hfailed, -, cause', heq, hc⟩
        obtain rfl := ServiceError.close.inj heq
        exact ⟨hfailed, hc⟩
  · cases outcome with
    | done value => exact absurd rfl hreturned
    | failed e => exact absurd rfl hreturned
    | waiting =>
      refine ⟨[], by rw [List.append_nil]; exact hsilent, Nat.zero_le _, ?_⟩
      intro cause
      simp

end Reached

/-- **In every operation the earliest failure wins.** -/
theorem earliestWins (o : Operation σ S β α) (name : String) (r : Run σ) :
    o.EarliestWins name r (o.run name r) where
  decides := by
    rcases o.run_cases name r with ⟨stage, e, hfirst, -, hfailed, -⟩ | ⟨q, workspace, session, hreach, hrun⟩
    · rw [hfailed]
      exact hfirst.decides
    · rw [hrun]
      exact hreach.decides
  warned := by
    rcases o.run_cases name r with ⟨stage, e, hfirst, hplace, -, hsilent⟩ |
      ⟨q, workspace, session, hreach, hrun⟩
    · -- there is no body behind a stage that has failed
      refine ⟨[], by rw [hsilent, List.append_nil], Nat.zero_le _, ?_⟩
      intro cause
      refine ⟨fun h => absurd h List.not_mem_nil, ?_⟩
      rintro ⟨-, hclosing⟩
      obtain ⟨q, workspace, session, hreach⟩ := reaches_of_fails hclosing (by decide)
      exact absurd hfirst.fails (hreach.not_fails hplace e)
    · rw [hrun]
      exact hreach.warned
  warns := fun _ _ _ => warn_of_closeFailure?

end Operation

end SharedPorts
