import SharedPorts.Service.Operations

/-!
# `SharedPorts.Proofs.Service.Trace` — the calls that a run adds

A run only ever adds calls at the end of its record, and marks each of them with whether the token had
fired by then. What an operation does to the record is therefore told by the list of calls that it adds,
its **trace**; traces of steps that follow each other are put together end to end.

## Contents
- **Calls.** `Call.heedsToken` and `Call.inSession`, `Begun.Timely`.
- **Traces.** `Run.Leads`, its composition, and the trace of each primitive step of a run.
- **Failing calls.** `CallFails`, how a call that heeds the token fails.
- **Bodies.** `SessionWork`, what may stand between opening and closing a session, and the body of one
  operation, `applyLevels_leads`.
-/

namespace SharedPorts

variable {σ S α : Type}

/-! ## Calls -/

/-- A call that is not begun once the token has fired. -/
def Call.heedsToken : Call → Bool
  | .connect _ | .list | .update .. => true
  | .resolve _ | .forwarder .. | .close => false

/-- A call that uses an open session. -/
def Call.inSession : Call → Bool
  | .list | .update .. | .forwarder .. => true
  | .resolve _ | .connect _ | .close => false

/-- A call was begun in time: before the token had fired, if the call heeds the token. -/
def Begun.Timely (b : Begun) : Prop := b.call.heedsToken = true → b.fired = false

/-! ## Traces -/

/-- A run goes on from `r` to `r'` by the calls of `trace`. The token stays fired once it has fired, and
    so do the marks of the calls. -/
structure Run.Leads (r : Run σ) (trace : List Begun) (r' : Run σ) : Prop where
  calls : r'.calls = r.calls ++ trace
  fired : r.fired = true → r'.fired = true
  before : ∀ b ∈ trace, r.fired = true → b.fired = true
  after : ∀ b ∈ trace, b.fired = true → r'.fired = true
  marks : trace.Pairwise fun a b => a.fired = true → b.fired = true

namespace Run.Leads

variable {r r₁ r₂ : Run σ} {trace trace₁ trace₂ : List Begun}

/-- Nothing is called where the record and the token stay as they are. -/
theorem of_eq (hc : r₁.calls = r.calls) (hf : r.fired = true → r₁.fired = true) : r.Leads [] r₁ where
  calls := by rw [hc, List.append_nil]
  fired := hf
  before := by intro b hb; exact absurd hb List.not_mem_nil
  after := by intro b hb; exact absurd hb List.not_mem_nil
  marks := List.Pairwise.nil

/-- Traces of steps that follow each other are put together. -/
theorem trans (h₁ : r.Leads trace₁ r₁) (h₂ : r₁.Leads trace₂ r₂) : r.Leads (trace₁ ++ trace₂) r₂ where
  calls := by rw [h₂.calls, h₁.calls, List.append_assoc]
  fired := fun h => h₂.fired (h₁.fired h)
  before := by
    intro b hb h
    rcases List.mem_append.mp hb with hb | hb
    · exact h₁.before b hb h
    · exact h₂.before b hb (h₁.fired h)
  after := by
    intro b hb h
    rcases List.mem_append.mp hb with hb | hb
    · exact h₂.fired (h₁.after b hb h)
    · exact h₂.after b hb h
  marks :=
    List.pairwise_append.mpr ⟨h₁.marks, h₂.marks, fun a ha b hb h => h₂.before b hb (h₁.after a ha h)⟩

end Run.Leads

namespace Run

/-- Nothing is logged by no lines. -/
@[simp] theorem write_nil (r : Run σ) : r.write [] = r := by
  unfold write
  rw [List.append_nil]

theorem leads_write (r : Run σ) (lines : List LogLine) : r.Leads [] (r.write lines) :=
  .of_eq rfl id

theorem leads_call (r : Run σ) (c : Call) (act : σ → Reply σ α) :
    r.Leads [⟨c, r.fired⟩] (r.call c act).2 where
  calls := rfl
  fired := by intro h; simp [call, h]
  before := by intro b hb h; rw [List.mem_singleton.mp hb]; exact h
  after := by
    intro b hb h
    rw [List.mem_singleton.mp hb] at h
    simp [call, show r.fired = true from h]
  marks := List.pairwise_singleton _ _

/-- **A call that heeds the token** is not begun once the token has fired; otherwise it is made, and
    nothing comes of it if its result is late. -/
theorem callUnlessFired_cases (r : Run σ) (c : Call) (act : σ → Reply σ α) :
    (r.fired = true ∧ r.callUnlessFired c act = (none, r)) ∨
      (r.fired = false ∧ r.callUnlessFired c act = ((act r.state).inTime?, (r.call c act).2)) := by
  unfold callUnlessFired
  cases h : r.fired with
  | true => exact Or.inl ⟨rfl, rfl⟩
  | false => exact Or.inr ⟨rfl, rfl⟩

/-- Something comes of such a call where it is begun, and its result is in time. -/
theorem callUnlessFired_eq_some {r r' : Run σ} {c : Call} {act : σ → Reply σ α} {value : α}
    (h : r.callUnlessFired c act = (some value, r')) :
    r.fired = false ∧ (act r.state).inTime? = some value ∧ r' = (r.call c act).2 := by
  rcases r.callUnlessFired_cases c act with ⟨-, hc⟩ | ⟨hf, hc⟩
  · exact absurd (hc.symm.trans h) (by simp)
  · obtain ⟨hvalue, hr'⟩ := Prod.mk.inj (hc.symm.trans h)
    exact ⟨hf, hvalue, hr'.symm⟩

end Run

/-! ## Failing calls -/

/-- Something comes of a call just if its result is not late. -/
theorem Reply.inTime?_eq_some_iff (reply : Reply σ α) (value : α) :
    reply.inTime? = some value ↔ reply.late = false ∧ reply.value = value := by
  unfold Reply.inTime?
  cases reply.late <;> simp

/-- Nothing comes of a call just if its result is late. -/
theorem Reply.inTime?_eq_none_iff (reply : Reply σ α) : reply.inTime? = none ↔ reply.late = true := by
  unfold Reply.inTime?
  cases reply.late <;> simp

/-- **A call that heeds the token fails**: the token fires before its result is there, or the result is an
    error, which `wrap` makes one of the operation. `fired` says whether the token has fired before. -/
inductive CallFails (fired : Bool) (reply : Reply σ (Except Cause α)) (wrap : Cause → ServiceError) :
    ServiceError → Prop
  | cancelled (h : fired = true ∨ reply.late = true) : CallFails fired reply wrap .cancelled
  | refused {cause : Cause} (hf : fired = false) (hl : reply.late = false) (h : reply.value = .error cause) :
      CallFails fired reply wrap (wrap cause)

/-- What an operation makes of such a call. -/
def heeded (wrap : Cause → ServiceError) : Option (Except Cause α) → Except ServiceError α
  | none => .error .cancelled
  | some result => result.mapError wrap

section Calls

variable {fired : Bool} {reply : Reply σ (Except Cause α)} {wrap : Cause → ServiceError} {e : ServiceError}

/-- A call fails in one way, if at all: the token comes before the answer. -/
theorem callFails_iff_of_cancelled (h : fired = true ∨ reply.late = true) :
    CallFails fired reply wrap e ↔ e = .cancelled := by
  constructor
  · intro hfails
    cases hfails with
    | cancelled _ => rfl
    | refused hf hl _ => simp [hf, hl] at h
  · rintro rfl
    exact .cancelled h

theorem callFails_iff_of_error {cause : Cause} (hf : fired = false) (hl : reply.late = false)
    (hv : reply.value = .error cause) : CallFails fired reply wrap e ↔ e = wrap cause := by
  constructor
  · intro hfails
    cases hfails with
    | cancelled h => simp [hf, hl] at h
    | refused _ _ h => rw [Except.error.inj (hv.symm.trans h)]
  · rintro rfl
    exact .refused hf hl hv

theorem not_callFails {value : α} (hf : fired = false) (hl : reply.late = false)
    (hv : reply.value = .ok value) : ¬ CallFails fired reply wrap e := by
  intro hfails
  cases hfails with
  | cancelled h => simp [hf, hl] at h
  | refused _ _ h => exact absurd (hv.symm.trans h) (by simp)

/-- A call that fails does so with one error. -/
theorem CallFails.unique {e' : ServiceError} (h : CallFails fired reply wrap e)
    (h' : CallFails fired reply wrap e') : e = e' := by
  cases h with
  | cancelled hc => exact ((callFails_iff_of_cancelled hc).mp h').symm
  | refused hf hl hv => exact ((callFails_iff_of_error hf hl hv).mp h').symm

/-- **A call that heeds the token** comes to an error just if it fails, and with what it fails. -/
theorem heeded_eq_error_iff (r : Run σ) (c : Call) (act : σ → Reply σ (Except Cause α))
    (wrap : Cause → ServiceError) (e : ServiceError) :
    heeded wrap (r.callUnlessFired c act).1 = .error e ↔ CallFails r.fired (act r.state) wrap e := by
  have herror : ∀ e' : ServiceError, (Except.error e' : Except ServiceError α) = .error e ↔ e = e' :=
    fun e' => (Except.error.injEq e' e).to_iff.trans eq_comm
  unfold Run.callUnlessFired Reply.inTime?
  cases hf : r.fired with
  | true => exact (herror _).trans (callFails_iff_of_cancelled (Or.inl rfl)).symm
  | false =>
    cases hl : (act r.state).late with
    | true => exact (herror _).trans (callFails_iff_of_cancelled (Or.inr hl)).symm
    | false =>
      cases hv : (act r.state).value with
      | error cause => exact (herror _).trans (callFails_iff_of_error rfl hl hv).symm
      | ok value =>
        have hok : (.ok value : Except ServiceError α) ≠ .error e := by simp
        exact iff_of_false hok (not_callFails rfl hl hv)

end Calls

/-! ## Bodies

What an operation does in its session is its body. Each body calls the session in its own way, which the
parameter `own` says of the list of calls, and never otherwise. -/

/-- Calls that an operation may make between opening its session and closing it. -/
structure SessionWork (own : List Call → Prop) (trace : List Begun) : Prop where
  own : own (trace.map (·.call))
  inSession : ∀ b ∈ trace, b.call.inSession = true
  timely : ∀ b ∈ trace, b.Timely

/-- A single call that was begun before the token had fired. -/
theorem sessionWork_singleton {own : List Call → Prop} {c : Call} (ho : own [c]) (hs : c.inSession = true) :
    SessionWork own [⟨c, false⟩] where
  own := ho
  inSession := by intro b hb; rw [List.mem_singleton.mp hb]; exact hs
  timely := by intro b hb _; rw [List.mem_singleton.mp hb]

/-- No call at all. -/
theorem sessionWork_nil {own : List Call → Prop} (ho : own []) : SessionWork own [] where
  own := ho
  inSession := by intro b hb; exact absurd hb List.not_mem_nil
  timely := by intro b hb; exact absurd hb List.not_mem_nil

namespace Service

/-- The call that a request for a level asks for. -/
def update (spec : LevelRequest) : Call := .update spec.port spec.level

/-- A first update, and the work that follows it. -/
theorem sessionWork_cons {spec : LevelRequest} {specs : List LevelRequest} {trace : List Begun}
    (h : SessionWork (· <+: specs.map update) trace) :
    SessionWork (· <+: (spec :: specs).map update) (⟨update spec, false⟩ :: trace) where
  own := List.prefix_cons_inj (update spec) |>.mpr h.own
  inSession := by
    intro b hb
    rcases List.mem_cons.mp hb with rfl | hb
    · rfl
    · exact h.inSession b hb
  timely := by
    intro b hb
    rcases List.mem_cons.mp hb with rfl | hb
    · exact fun _ => rfl
    · exact h.timely b hb

/-- **Setting levels** asks for the first of the levels, up to some point, in their order. -/
theorem applyLevels_leads (s : Service σ S) (session : S) (specs : List LevelRequest) (r : Run σ) :
    ∃ trace, r.Leads trace (s.applyLevels session specs r).2 ∧
      SessionWork (· <+: specs.map update) trace := by
  -- each update may change the run that the next one starts from
  induction specs generalizing r with
  | nil => exact ⟨[], .of_eq rfl id, sessionWork_nil List.prefix_rfl⟩
  | cons spec specs ih =>
    have hone : SessionWork (· <+: (spec :: specs).map update) [⟨update spec, false⟩] :=
      sessionWork_cons (sessionWork_nil List.nil_prefix)
    unfold applyLevels
    rcases r.callUnlessFired_cases (update spec) (s.backend.setLevel session spec.port spec.level) with
      ⟨hf, h⟩ | ⟨hf, h⟩
    · rw [show Call.update spec.port spec.level = update spec from rfl, h]
      exact ⟨[], .of_eq rfl id, sessionWork_nil List.nil_prefix⟩
    · rw [show Call.update spec.port spec.level = update spec from rfl, h]
      have hc := r.leads_call (update spec) (s.backend.setLevel session spec.port spec.level)
      rw [hf] at hc
      -- an update that fails, or comes too late, is the last call
      cases hv : (s.backend.setLevel session spec.port spec.level r.state).inTime? with
      | none => exact ⟨_, hc, hone⟩
      | some result =>
        cases result with
        | error cause => exact ⟨_, hc, hone⟩
        | ok _ =>
          obtain ⟨trace, hleads, hwork⟩ :=
            ih (((r.call (update spec) (s.backend.setLevel session spec.port spec.level)).2).write
              [.nowScoped spec])
          exact ⟨_, (hc.trans (Run.leads_write _ _)).trans hleads, sessionWork_cons hwork⟩

end Service

end SharedPorts
