import SharedPorts.Proofs.Forward.FirstEnd
import SharedPorts.Proofs.Service.Levels
import SharedPorts.Proofs.Service.Rows

/-!
# `SharedPorts.Proofs.Service.Lifecycle` — one session, opened once and closed once

Every operation goes through the same stages: it chooses a workspace, opens a session on it, works there
and closes the session. Each stage may fail, and the token may fire before, during or after each of them.
`Service.Lifecycle` lists the traces that this leaves, by what the collaborators answered and by whether the
work in the session has an end; the main statement says that the three operations have no other traces.

## Contents
- **Stages.** `Service.Lifecycle` and `Service.Follows`.
- **Sessions.** `Service.KeepsTo` and `KeepsTo.follows`, for any work that keeps to its session.
- **Operations.** The work of each operation keeps to its session; `operations_lifecycle`.
-/

namespace SharedPorts

variable {σ S α : Type}

namespace Service

/-! ## Stages -/

/-- **The trace of an operation** on the workspace that `name` asks for. `returned` says whether the
    operation has come to an end, `own` what calls it makes in its session, and `waits` where its work there
    has no end. -/
inductive Lifecycle (s : Service σ S) (name : String) (own : List Call → Prop)
    (waits : String → S → Run σ → Prop) (r : Run σ) : Bool → List Begun → Prop
  /-- No workspace was chosen. -/
  | unresolved {e : ChoiceError Cause} (hr : (s.backend.resolve name r.state).value = .error e) :
      Lifecycle s name own waits r true [⟨.resolve name, r.fired⟩]
  /-- The token fired before a session was asked for. -/
  | fired {workspace : String} (hr : (s.backend.resolve name r.state).value = .ok workspace)
      (hf : (s.afterResolve name r).fired = true) :
      Lifecycle s name own waits r true [⟨.resolve name, r.fired⟩]
  /-- No session was opened. -/
  | unopened {workspace : String} (hr : (s.backend.resolve name r.state).value = .ok workspace)
      (hf : (s.afterResolve name r).fired = false)
      (ho : ∀ session, ¬ s.Opens workspace session (s.afterResolve name r)) :
      Lifecycle s name own waits r true [⟨.resolve name, r.fired⟩, ⟨.connect workspace, false⟩]
  /-- A session was opened. It was closed unless the work in it has no end, and then the operation has none
      either. -/
  | opened {workspace : String} {session : S} {body : List Begun} {returned firedAtEnd : Bool}
      (hr : (s.backend.resolve name r.state).value = .ok workspace)
      (hf : (s.afterResolve name r).fired = false)
      (ho : s.Opens workspace session (s.afterResolve name r))
      (hb : SessionWork own body)
      (hw : returned = false ↔ waits workspace session (s.entered name workspace r)) :
      Lifecycle s name own waits r returned
        (⟨.resolve name, r.fired⟩ :: ⟨.connect workspace, false⟩ ::
          (body ++ if returned then [⟨.close, firedAtEnd⟩] else []))

/-- The trace of an operation, with the calls of a run before it and behind it. -/
def Follows (s : Service σ S) (name : String) (own : List Call → Prop) (waits : String → S → Run σ → Prop)
    (r : Run σ) (result : Outcome α × Run σ) : Prop :=
  ∃ trace, r.Leads trace result.2 ∧ s.Lifecycle name own waits r result.1.returned trace ∧
    ∀ b ∈ trace, b.Timely

/-- Whatever the stages, no call that heeds the token is begun too late. -/
theorem Lifecycle.timely {s : Service σ S} {name : String} {own : List Call → Prop}
    {waits : String → S → Run σ → Prop} {r : Run σ} {returned : Bool} {trace : List Begun}
    (h : s.Lifecycle name own waits r returned trace) :
    ∀ b ∈ trace, b.Timely := by
  have hresolve : Begun.Timely ⟨.resolve name, r.fired⟩ := fun hh => absurd hh (by simp [Call.heedsToken])
  intro b hb
  cases h with
  | unresolved _ => rw [List.mem_singleton.mp hb]; exact hresolve
  | fired _ _ => rw [List.mem_singleton.mp hb]; exact hresolve
  | unopened _ _ _ =>
    rcases List.mem_cons.mp hb with rfl | hb
    · exact hresolve
    · rw [List.mem_singleton.mp hb]
      exact fun _ => rfl
  | opened _ _ _ hwork _ =>
    rcases List.mem_cons.mp hb with rfl | hb
    · exact hresolve
    rcases List.mem_cons.mp hb with rfl | hb
    · exact fun _ => rfl
    rcases List.mem_append.mp hb with hb | hb
    · exact hwork.timely b hb
    · split at hb
      · rw [List.mem_singleton.mp hb]
        exact fun hh => absurd hh (by simp [Call.heedsToken])
      · exact absurd hb List.not_mem_nil

/-! ## Sessions -/

/-- **Work that keeps to its session**: it makes calls of its own kind there, and has no end just where
    `waits` says so. -/
structure KeepsTo (own : List Call → Prop) (waits : String → S → Run σ → Prop)
    (work : String → S → Run σ → Outcome α × Run σ) : Prop where
  leads : ∀ workspace session (r : Run σ),
    ∃ trace, r.Leads trace (work workspace session r).2 ∧ SessionWork own trace
  waiting_iff : ∀ workspace session (r : Run σ),
    (work workspace session r).1 = .waiting ↔ waits workspace session r

/-- **An operation whose work keeps to its session** has the trace of its stages. -/
theorem KeepsTo.follows {s : Service σ S} {own : List Call → Prop} {waits : String → S → Run σ → Prop}
    {work : String → S → Run σ → Outcome α × Run σ} (hw : KeepsTo own waits work) (name : String)
    (r : Run σ) : s.Follows name own waits r (s.withSession name work r) := by
  -- that every call is timely is known of all traces of `Lifecycle`
  suffices h : ∃ trace, r.Leads trace (s.withSession name work r).2 ∧
      s.Lifecycle name own waits r (s.withSession name work r).1.returned trace by
    obtain ⟨trace, hleads, hlife⟩ := h
    exact ⟨trace, hleads, hlife, hlife.timely⟩
  have hresolve : r.Leads [⟨.resolve name, r.fired⟩] (s.afterResolve name r) := r.leads_call _ _
  cases hr : (s.backend.resolve name r.state).value with
  | error e =>
    have hunresolved : s.resolve name r = (.error (.ofChoice e), s.afterResolve name r) := by
      rw [s.resolve_eq, hr]
      rfl
    rw [withSession_of_unresolved hunresolved]
    exact ⟨_, hresolve, .unresolved hr⟩
  | ok workspace =>
    rcases (s.afterResolve name r).callUnlessFired_cases (.connect workspace) (s.backend.connect workspace)
      with ⟨hf, hcall⟩ | ⟨hf, hcall⟩
    · have hunopened : s.connect workspace (s.afterResolve name r) =
          (.error .cancelled, s.afterResolve name r) := by
        rw [connect, hcall]
      rw [withSession_of_unopened (resolve_of_ok hr) hunopened]
      exact ⟨_, hresolve, .fired hr hf⟩
    · have hconnect := hresolve.trans
        ((s.afterResolve name r).leads_call (.connect workspace) (s.backend.connect workspace))
      rw [hf] at hconnect
      cases hv : (s.backend.connect workspace (s.afterResolve name r).state).inTime? with
      | none =>
        have hunopened : s.connect workspace (s.afterResolve name r) =
            (.error .cancelled, s.entered name workspace r) := by
          rw [connect, hcall, hv]
          rfl
        rw [withSession_of_unopened (resolve_of_ok hr) hunopened]
        exact ⟨_, hconnect, .unopened hr hf (fun session ho => absurd (hv.symm.trans ho) (by simp))⟩
      | some answer =>
        cases answer with
        | error cause =>
          have hunopened : s.connect workspace (s.afterResolve name r) =
              (.error (.connection cause), s.entered name workspace r) := by
            rw [connect, hcall, hv]
            rfl
          rw [withSession_of_unopened (resolve_of_ok hr) hunopened]
          exact ⟨_, hconnect, .unopened hr hf (fun session ho => absurd (hv.symm.trans ho) (by simp))⟩
        | ok session =>
          have henters : s.Enters name r workspace session := ⟨hr, hf, hv⟩
          rw [henters.withSession_eq work]
          obtain ⟨body, hbody, hwork⟩ := hw.leads workspace session (s.entered name workspace r)
          -- whatever came of the work, closing follows it, and does not change whether it ended
          obtain ⟨hreturned, hend⟩ := s.finish_leads session
            (work workspace session (s.entered name workspace r)).1
            (work workspace session (s.entered name workspace r)).2
          have hwaits := hw.waiting_iff workspace session (s.entered name workspace r)
          rw [← Outcome.returned_eq_false_iff] at hwaits
          refine ⟨_, hconnect.trans (hbody.trans hend), ?_⟩
          rw [hreturned]
          exact .opened hr hf hv hwork hwaits

/-! ## Operations -/

/-- What is logged at the end does not change a trace. -/
theorem Follows.write {s : Service σ S} {name : String} {own : List Call → Prop}
    {waits : String → S → Run σ → Prop} {r r' : Run σ} {outcome : Outcome α}
    (h : s.Follows name own waits r (outcome, r')) (lines : List LogLine) :
    s.Follows name own waits r (outcome, r'.write lines) := by
  obtain ⟨trace, hleads, hlife, htimely⟩ := h
  have hall := hleads.trans (r'.leads_write lines)
  rw [List.append_nil] at hall
  exact ⟨trace, hall, hlife, htimely⟩

theorem rows_keepsTo (s : Service σ S) : KeepsTo (· <+: [.list]) s.ListingWaits s.rows :=
  ⟨s.rows_leads, s.rows_waiting_iff⟩

/-- Setting levels always has an end. -/
theorem applyLevels_keepsTo (s : Service σ S) (requests : List LevelRequest) :
    KeepsTo (· <+: requests.map update) (fun _ _ _ => False)
      (fun _ session => s.applyLevels session requests) where
  leads := fun _ session => s.applyLevels_leads session requests
  waiting_iff := by
    intro _ session r
    refine iff_of_false ?_ not_false
    rw [← Outcome.returned_eq_false_iff, s.applyLevels_returned]
    exact Bool.noConfusion

theorem forwardTogether_keepsTo (s : Service σ S) (pairs : List ForwardRequest) :
    KeepsTo (·.Sublist (pairs.map Group.creation))
      (fun _ session r => Group.Endless s.busy (s.backend.forwarder session) r pairs)
      (fun _ session => forwardTogether s.busy (s.backend.forwarder session) pairs) where
  leads := fun _ session => forwardTogether_leads s.busy (s.backend.forwarder session) pairs
  waiting_iff := fun _ session => Group.waiting_iff_endless s.busy (s.backend.forwarder session) pairs

/-- **The lifecycle of a session.** A malformed request leaves the run as it was. Otherwise every operation
    has one of the traces of `Lifecycle`: it asks for a workspace first, then for at most one session, on
    the workspace that was chosen; in a session that was opened it makes calls of its own kind, and closes
    it once, at the end. No call that heeds the token is begun once the token has fired. Only a listing whose
    labels are never read and forwards that never stop have no end; setting levels always has one. -/
theorem operations_lifecycle (s : Service σ S) (name : String) (specs : List String) (r : Run σ) :
    s.Follows name (· <+: [.list]) s.ListingWaits r (s.list name r) ∧
    ((∃ spec ∈ specs, ∃ e, LevelRequest.parse spec = .error e) → (s.setLevels name specs r).2 = r) ∧
    (∀ requests, LevelRequest.parseAll specs = .ok requests →
      s.Follows name (· <+: requests.map update) (fun _ _ _ => False) r (s.setLevels name specs r)) ∧
    ((∃ spec ∈ specs, ∃ e, ForwardRequest.parse spec = .error e) → (s.forward name specs r).2 = r) ∧
    (∀ pairs, ForwardRequest.parseAll specs = .ok pairs →
      s.Follows name (·.Sublist (pairs.map Group.creation))
        (fun _ session r => Group.Endless s.busy (s.backend.forwarder session) r pairs) r
        (s.forward name specs r)) := by
  refine ⟨?_, ?_, ?_, ?_, ?_⟩
  · have hwork := s.rows_keepsTo.follows (s := s) name r
    rcases s.list_cases name r with ⟨-, heq⟩ | ⟨-, e, r', hfailed, heq⟩
    · rw [heq]
      exact hwork
    · rw [hfailed] at hwork
      rw [heq]
      exact hwork.write _
  · intro h
    obtain ⟨e, he⟩ := (mapM_eq_error_iff _ _).mpr h
    unfold setLevels
    rw [show LevelRequest.parseAll specs = .error e from he]
  · intro requests h
    unfold setLevels
    rw [h]
    exact (s.applyLevels_keepsTo requests).follows name r
  · intro h
    obtain ⟨e, he⟩ := (mapM_eq_error_iff _ _).mpr h
    unfold forward
    rw [show ForwardRequest.parseAll specs = .error e from he]
  · intro pairs h
    unfold forward
    rw [h]
    exact (s.forwardTogether_keepsTo pairs).follows name r

end Service

end SharedPorts
