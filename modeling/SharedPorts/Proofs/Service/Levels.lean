import SharedPorts.Proofs.Service.Sessions
import SharedPorts.Service.Script

/-!
# `SharedPorts.Proofs.Service.Levels` — levels are set up to some point, in order

Levels are set one after the other, and two things may end this before the last of them: an update that
fails, and a token that fires. Were every request passed on, the session would answer each of them in the
state that the one before left; these answers are the **trail** of the requests. What is really done is a
beginning of the trail, and the calls, the log, the state and the result all belong to the same beginning.

## Contents
- **Trails.** `LevelAnswer`, with `succeeds`, `lines` and `interrupts`; `Service.levelTrail`,
  `stateAfter`.
- **Ends.** `LevelsEnd`, how setting levels comes to an end behind its first `k` requests.
- **Courses.** `LevelsCourse`, all that is done by then; the course of no request, and of one more.
- **Bodies.** `Service.LevelStep`, what one request comes to; `applyLevels_course`, by induction on the
  requests.
- **Operations.** `Service.scoped?`, the lines that say of a level that it was set; `Service.SetsPrefix`
  and `setLevels_ordered_prefix`.
-/

namespace SharedPorts

variable {σ S : Type}

/-! ## Trails -/

/-- A request for a level, and what the session answers to it. -/
structure LevelAnswer (σ : Type) where
  request : LevelRequest
  reply : Reply σ (Except Cause Unit)

namespace LevelAnswer

/-- The level was set, and this was known in time. -/
def succeeds (a : LevelAnswer σ) : Bool :=
  match a.reply.inTime? with
  | some (.ok ()) => true
  | _ => false

/-- The token fired during the call. -/
def interrupts (a : LevelAnswer σ) : Bool := a.reply.fired || a.reply.late

/-- What is logged of an answer: the notes of the session, and that the level was set if it was. -/
def lines (a : LevelAnswer σ) : List LogLine :=
  a.reply.log.map .note ++ if a.succeeds then [.nowScoped a.request] else []

theorem succeeds_iff (a : LevelAnswer σ) : a.succeeds = true ↔ a.reply.inTime? = some (.ok ()) := by
  unfold succeeds
  split
  · rename_i h
    exact ⟨fun _ => h, fun _ => rfl⟩
  · rename_i h
    exact ⟨fun hc => absurd hc (by simp), fun hc => absurd hc h⟩

end LevelAnswer

/-- The state behind some answers that began in `state`. -/
def stateAfter (answers : List (LevelAnswer σ)) (state : σ) : σ :=
  (answers.getLast?.map (·.reply.state)).getD state

theorem stateAfter_cons (a : LevelAnswer σ) (answers : List (LevelAnswer σ)) (state : σ) :
    stateAfter (a :: answers) state = stateAfter answers a.reply.state := by
  unfold stateAfter
  rw [List.getLast?_cons]
  cases answers.getLast? <;> rfl

namespace Service

/-- The answer to a request in a given state. -/
def levelAnswer (s : Service σ S) (session : S) (request : LevelRequest) (state : σ) : LevelAnswer σ :=
  ⟨request, s.backend.setLevel session request.port request.level state⟩

/-- The answers to all of some requests, each in the state that the one before left. -/
def levelTrail (s : Service σ S) (session : S) : List LevelRequest → σ → List (LevelAnswer σ)
  | [], _ => []
  | request :: requests, state =>
    let a := s.levelAnswer session request state
    a :: s.levelTrail session requests a.reply.state

/-- The trail answers each request once, in their order. -/
theorem levelTrail_requests (s : Service σ S) (session : S) (requests : List LevelRequest) (state : σ) :
    (s.levelTrail session requests state).map (·.request) = requests := by
  induction requests generalizing state with
  | nil => rfl
  | cons request requests ih =>
    unfold levelTrail
    rw [List.map_cons, ih]
    rfl

end Service

/-! ## Ends -/

/-- **The end of setting levels** along a trail, behind its first `k` answers. `fired` says whether the
    token has fired by then. -/
inductive LevelsEnd (trail : List (LevelAnswer σ)) (fired : Bool) (k : Nat) : Outcome Unit → Prop
  /-- All levels are set, whether or not the token fired meanwhile. -/
  | done (hk : k = trail.length) (hall : ∀ a ∈ trail.take k, a.succeeds = true) :
      LevelsEnd trail fired k (.done ())
  /-- The last of the updates failed, whether or not the token fired meanwhile. -/
  | failed {a : LevelAnswer σ} {cause : Cause} (hlast : (trail.take k).getLast? = some a)
      (hcause : a.reply.inTime? = some (.error cause)) :
      LevelsEnd trail fired k (.failed (.update a.request.port cause))
  /-- The token had fired before the next update was begun. -/
  | cancelled (hk : k < trail.length) (hf : fired = true)
      (hall : ∀ a ∈ trail.take k, a.succeeds = true) :
      LevelsEnd trail fired k (.failed .cancelled)
  /-- The token fired while the last of the updates had no answer yet. -/
  | abandoned {a : LevelAnswer σ} (hlast : (trail.take k).getLast? = some a) (hf : fired = true)
      (hlate : a.reply.late = true) :
      LevelsEnd trail fired k (.failed .cancelled)

/-- One more answer in front, which succeeded, does not change the end. -/
theorem LevelsEnd.cons {trail : List (LevelAnswer σ)} {fired : Bool} {k : Nat} {outcome : Outcome Unit}
    {a : LevelAnswer σ} (ha : a.succeeds = true) (h : LevelsEnd trail fired k outcome) :
    LevelsEnd (a :: trail) fired (k + 1) outcome := by
  have hall : (∀ b ∈ trail.take k, b.succeeds = true) →
      ∀ b ∈ (a :: trail).take (k + 1), b.succeeds = true := by
    intro hrest b hb
    rw [List.take_succ_cons] at hb
    rcases List.mem_cons.mp hb with rfl | hb
    · exact ha
    · exact hrest b hb
  have hlast : ∀ b, (trail.take k).getLast? = some b →
      ((a :: trail).take (k + 1)).getLast? = some b := by
    intro b hb
    rw [List.take_succ_cons, List.getLast?_cons, hb]
    rfl
  cases h with
  | done hk hrest => exact .done (by rw [hk]; rfl) (hall hrest)
  | failed hb hcause => exact .failed (hlast _ hb) hcause
  | cancelled hk hf hrest => exact .cancelled (Nat.succ_lt_succ hk) hf (hall hrest)
  | abandoned hb hf hlate => exact .abandoned (hlast _ hb) hf hlate

/-- The body ends well only where every level was set. -/
theorem LevelsEnd.done_iff {trail : List (LevelAnswer σ)} {fired : Bool} {k : Nat} {outcome : Outcome Unit}
    (h : LevelsEnd trail fired k outcome) :
    outcome = .done () ↔ k = trail.length ∧ ∀ a ∈ trail.take k, a.succeeds = true := by
  -- an answer that is the last of those given, and did not succeed
  have hnot : ∀ a, (trail.take k).getLast? = some a → a.reply.inTime? ≠ some (.ok ()) →
      ¬ ∀ a ∈ trail.take k, a.succeeds = true := by
    intro a hlast hne hall
    exact hne (a.succeeds_iff.mp (hall a (List.mem_of_getLast? hlast)))
  cases h with
  | done hk hall => exact ⟨fun _ => ⟨hk, hall⟩, fun _ => rfl⟩
  | failed hlast hcause =>
    refine ⟨fun hc => absurd hc (by simp), fun hc => absurd hc.2 (hnot _ hlast ?_)⟩
    rw [hcause]
    simp
  | cancelled hk hf hall =>
    exact ⟨fun hc => absurd hc (by simp), fun hc => absurd hc.1 (Nat.ne_of_lt hk)⟩
  | abandoned hlast hf hlate =>
    refine ⟨fun hc => absurd hc (by simp), fun hc => absurd hc.2 (hnot _ hlast ?_)⟩
    simp [Reply.inTime?, hlate]

/-- **A failing update** is the result, even if the token fired during it. -/
theorem LevelsEnd.of_failing {trail : List (LevelAnswer σ)} {fired : Bool} {k : Nat}
    {outcome : Outcome Unit} {a : LevelAnswer σ} {cause : Cause} (h : LevelsEnd trail fired k outcome)
    (hlast : (trail.take k).getLast? = some a) (hcause : a.reply.inTime? = some (.error cause)) :
    outcome = .failed (.update a.request.port cause) := by
  have hnot : ¬ ∀ b ∈ trail.take k, b.succeeds = true := by
    intro hall
    have hs := a.succeeds_iff.mp (hall a (List.mem_of_getLast? hlast))
    exact absurd (hcause.symm.trans hs) (by simp)
  cases h with
  | done hk hall => exact absurd hall hnot
  | failed hlast' hcause' =>
    obtain rfl := Option.some.inj (hlast.symm.trans hlast')
    rw [Except.error.inj (Option.some.inj (hcause.symm.trans hcause'))]
  | cancelled hk hf hall => exact absurd hall hnot
  | abandoned hlast' hf hlate =>
    obtain rfl := Option.some.inj (hlast.symm.trans hlast')
    exact absurd (hcause.symm.trans ((a.reply.inTime?_eq_none_iff).mpr hlate)) (by simp)

theorem LevelsEnd.returned {trail : List (LevelAnswer σ)} {fired : Bool} {k : Nat}
    {outcome : Outcome Unit} (h : LevelsEnd trail fired k outcome) : outcome.returned = true := by
  cases h <;> rfl

/-- **Cancelled** means that the token has fired, and that some level is not set. -/
theorem LevelsEnd.cancelled_remains {trail : List (LevelAnswer σ)} {fired : Bool} {k : Nat}
    (h : LevelsEnd trail fired k (.failed .cancelled)) :
    fired = true ∧ ((trail.take k).filter LevelAnswer.succeeds).length < trail.length := by
  cases h with
  | cancelled hk hf hall =>
    refine ⟨hf, Nat.lt_of_le_of_lt (List.length_filter_le _ _) ?_⟩
    exact Nat.lt_of_le_of_lt (List.length_take_le k trail) hk
  | abandoned hlast hf hlate =>
    refine ⟨hf, Nat.lt_of_lt_of_le ?_ (List.length_take_le' k trail)⟩
    -- the last answer is not among those that succeeded
    refine List.length_filter_lt_length_iff_exists.mpr ⟨_, List.mem_of_getLast? hlast, ?_⟩
    simp [LevelAnswer.succeeds, Reply.inTime?, hlate]

/-! ## Courses -/

/-- **What is done by the end.** The first `k` requests are passed on, in their order, and all of them but
    the last succeed; the log says so of each that succeeded, and of no other. The state is the one that
    the last of them left: what has been set stays set. -/
structure LevelsCourse (trail : List (LevelAnswer σ)) (r : Run σ) (k : Nat) (outcome : Outcome Unit)
    (r' : Run σ) : Prop where
  bound : k ≤ trail.length
  calls : r'.calls = r.calls ++ (trail.take k).map fun a => ⟨Service.update a.request, false⟩
  log : r'.log = r.log ++ (trail.take k).flatMap LevelAnswer.lines
  state : r'.state = stateAfter (trail.take k) r.state
  fired : r'.fired = (r.fired || (trail.take k).any LevelAnswer.interrupts)
  earlier : ∀ a ∈ trail.take (k - 1), a.succeeds = true
  ended : LevelsEnd trail r'.fired k outcome

/-- Nothing is done. -/
theorem LevelsCourse.zero {trail : List (LevelAnswer σ)} {r : Run σ} {outcome : Outcome Unit}
    (h : LevelsEnd trail r.fired 0 outcome) : LevelsCourse trail r 0 outcome r where
  bound := Nat.zero_le _
  calls := (List.append_nil _).symm
  log := (List.append_nil _).symm
  state := rfl
  fired := (Bool.or_false _).symm
  earlier := by intro a ha; exact absurd ha List.not_mem_nil
  ended := h

/-- The run behind one request that was passed on. -/
def afterLevel (a : LevelAnswer σ) (r : Run σ) : Run σ :=
  ((r.call (Service.update a.request) fun _ => a.reply).2).write
    (if a.succeeds then [.nowScoped a.request] else [])

theorem afterLevel_log (a : LevelAnswer σ) (r : Run σ) : (afterLevel a r).log = r.log ++ a.lines := by
  unfold afterLevel LevelAnswer.lines
  rw [← List.append_assoc]
  rfl

theorem afterLevel_fired (a : LevelAnswer σ) (r : Run σ) :
    (afterLevel a r).fired = (r.fired || a.interrupts) := Bool.or_assoc ..

/-- One request is passed on, and it is the last. -/
theorem LevelsCourse.one {a : LevelAnswer σ} {trail : List (LevelAnswer σ)} {r : Run σ}
    {outcome : Outcome Unit} (hf : r.fired = false)
    (h : LevelsEnd (a :: trail) (afterLevel a r).fired 1 outcome) :
    LevelsCourse (a :: trail) r 1 outcome (afterLevel a r) where
  bound := Nat.succ_le_succ (Nat.zero_le _)
  calls := by rw [← hf]; rfl
  log := by rw [afterLevel_log]; simp
  state := rfl
  fired := by rw [afterLevel_fired]; simp
  earlier := by intro b hb; exact absurd hb List.not_mem_nil
  ended := h

/-- One request is passed on and succeeds, and the others follow. -/
theorem LevelsCourse.cons {a : LevelAnswer σ} {trail : List (LevelAnswer σ)} {r r' : Run σ} {k : Nat}
    {outcome : Outcome Unit} (hf : r.fired = false) (ha : a.succeeds = true)
    (h : LevelsCourse trail (afterLevel a r) k outcome r') :
    LevelsCourse (a :: trail) r (k + 1) outcome r' where
  bound := Nat.succ_le_succ h.bound
  calls := by
    have hcall : (afterLevel a r).calls = r.calls ++ [⟨Service.update a.request, false⟩] := by
      rw [← hf]
      rfl
    rw [h.calls, hcall, List.append_assoc, List.take_succ_cons, List.map_cons]
    rfl
  log := by rw [h.log, afterLevel_log, List.append_assoc, List.take_succ_cons, List.flatMap_cons]
  state := by
    rw [h.state, List.take_succ_cons, stateAfter_cons]
    rfl
  fired := by rw [h.fired, afterLevel_fired, Bool.or_assoc, List.take_succ_cons, List.any_cons]
  earlier := by
    cases k with
    | zero => intro b hb; exact absurd hb List.not_mem_nil
    | succ k =>
      intro b hb
      rw [Nat.add_sub_cancel, List.take_succ_cons] at hb
      rcases List.mem_cons.mp hb with rfl | hb
      · exact ha
      · exact h.earlier b hb
  ended := h.ended.cons ha

/-! ## Bodies -/

namespace Service

/-- **One step of setting levels**: what a request comes to that the session answers by `a`, with others
    behind it. -/
inductive LevelStep (s : Service σ S) (session : S) (requests : List LevelRequest) (a : LevelAnswer σ)
    (r : Run σ) : Outcome Unit × Run σ → Prop
  /-- The token had fired, and nothing is asked for. -/
  | unbegun (hf : r.fired = true) : LevelStep s session requests a r (.failed .cancelled, r)
  /-- The token fired before the answer was there. -/
  | abandoned (hf : r.fired = false) (hlate : a.reply.late = true) :
      LevelStep s session requests a r (.failed .cancelled, afterLevel a r)
  /-- The answer was an error. -/
  | failed {cause : Cause} (hf : r.fired = false) (hcause : a.reply.inTime? = some (.error cause)) :
      LevelStep s session requests a r (.failed (.update a.request.port cause), afterLevel a r)
  /-- The level was set, and the others follow. -/
  | set (hf : r.fired = false) (hs : a.succeeds = true) :
      LevelStep s session requests a r (s.applyLevels session requests (afterLevel a r))

theorem applyLevels_step (s : Service σ S) (session : S) (request : LevelRequest)
    (requests : List LevelRequest) (r : Run σ) :
    s.LevelStep session requests (s.levelAnswer session request r.state) r
      (s.applyLevels session (request :: requests) r) := by
  rw [applyLevels, show Call.update request.port request.level = update request from rfl]
  rcases r.callUnlessFired_cases (update request) (s.backend.setLevel session request.port request.level)
    with ⟨hf, h⟩ | ⟨hf, h⟩
  · rw [h]
    exact .unbegun hf
  · have hreply : s.backend.setLevel session request.port request.level r.state =
        (s.levelAnswer session request r.state).reply := rfl
    have hcall : (r.call (update request) (s.backend.setLevel session request.port request.level)).2 =
        (r.call (update request) fun _ => (s.levelAnswer session request r.state).reply).2 := rfl
    rw [h, hreply, hcall]
    generalize ha : s.levelAnswer session request r.state = a
    obtain rfl : a.request = request := by rw [← ha]; rfl
    -- nothing more is logged of a request that was not met
    have hunmet : a.succeeds = false → (r.call (update a.request) fun _ => a.reply).2 = afterLevel a r := by
      intro hs
      unfold afterLevel
      rw [hs]
      exact (Run.write_nil _).symm
    cases hv : a.reply.inTime? with
    | none =>
      rw [hunmet (by simp [LevelAnswer.succeeds, hv])]
      exact .abandoned hf ((a.reply.inTime?_eq_none_iff).mp hv)
    | some result =>
      cases result with
      | error cause =>
        rw [hunmet (by simp [LevelAnswer.succeeds, hv])]
        exact .failed hf hv
      | ok _ =>
        have hs : a.succeeds = true := a.succeeds_iff.mpr hv
        have hmet : ((r.call (update a.request) fun _ => a.reply).2).write [.nowScoped a.request] =
            afterLevel a r := by
          unfold afterLevel
          rw [hs]
          rfl
        dsimp only
        rw [hmet]
        exact .set hf hs

/-- **Setting levels** does a beginning of the trail. -/
theorem applyLevels_course (s : Service σ S) (session : S) (requests : List LevelRequest) (r : Run σ) :
    ∃ k, LevelsCourse (s.levelTrail session requests r.state) r k
      (s.applyLevels session requests r).1 (s.applyLevels session requests r).2 := by
  -- each update may change the run that the next one starts from
  induction requests generalizing r with
  | nil => exact ⟨0, .zero (.done rfl (by intro a ha; exact absurd ha List.not_mem_nil))⟩
  | cons request requests ih =>
    unfold levelTrail
    dsimp only
    have hstep := s.applyLevels_step session request requests r
    have hlast : ∀ (a : LevelAnswer σ) trail, ((a :: trail).take 1).getLast? = some a := fun _ _ => rfl
    generalize s.levelAnswer session request r.state = a at hstep ⊢
    generalize s.applyLevels session (request :: requests) r = result at hstep ⊢
    cases hstep with
    | unbegun hf =>
      refine ⟨0, .zero (.cancelled (Nat.succ_pos _) hf ?_)⟩
      intro b hb
      exact absurd hb List.not_mem_nil
    | abandoned hf hlate =>
      refine ⟨1, .one hf (.abandoned (hlast a _) ?_ hlate)⟩
      rw [afterLevel_fired, LevelAnswer.interrupts, hlate, Bool.or_true, Bool.or_true]
    | failed hf hcause => exact ⟨1, .one hf (.failed (hlast a _) hcause)⟩
    | set hf hs =>
      obtain ⟨k, hk⟩ := ih (afterLevel a r)
      exact ⟨k + 1, hk.cons hf hs⟩

/-- Setting levels comes to an end. -/
theorem applyLevels_returned (s : Service σ S) (session : S) (requests : List LevelRequest) (r : Run σ) :
    (s.applyLevels session requests r).1.returned = true := by
  obtain ⟨k, hk⟩ := s.applyLevels_course session requests r
  exact hk.ended.returned

/-! ## Operations -/

/-- The request of which a line says that it was met. -/
def scoped? : LogLine → Option LevelRequest
  | .nowScoped request => some request
  | _ => none

theorem level_of_scoped? {line : LogLine} {request : LevelRequest} (h : scoped? line = some request) :
    line.level = .info := by
  cases line with
  | nowScoped _ => rfl
  | note _ | loading | labelsMissing _ | labelsUnread _ | forwarding _ | discarded _ | closeFailed _ =>
    exact absurd h (by simp [scoped?])

/-- A collaborator says nothing of levels that were set. -/
theorem scoped?_note (notes : List Note) : (notes.map LogLine.note).filterMap scoped? = [] := by
  rw [List.filterMap_map]
  exact List.filterMap_eq_nil_iff.mpr fun _ _ => rfl

theorem scoped?_call {α : Type} (r : Run σ) (c : Call) (act : σ → Reply σ α) :
    (r.call c act).2.log.filterMap scoped? = r.log.filterMap scoped? := by
  have h : (r.call c act).2.log = r.log ++ (act r.state).log.map .note := rfl
  rw [h, List.filterMap_append, scoped?_note, List.append_nil]

/-- Closing a session says nothing of levels that were set. -/
theorem scoped?_finish {α : Type} (s : Service σ S) (session : S) {outcome : Outcome α}
    (h : outcome.returned = true) (r : Run σ) :
    (s.finish session outcome r).2.log.filterMap scoped? = r.log.filterMap scoped? := by
  have hlines : ∀ result, (closingLines outcome result).filterMap scoped? = [] := by
    intro result
    cases outcome <;> cases result <;> rfl
  rw [s.finish_eq session h]
  dsimp only [Run.write]
  rw [List.filterMap_append, scoped?_call, hlines, List.append_nil]

/-- **One line for each level that was set**, in their order, and no other. -/
theorem scoped?_lines (answers : List (LevelAnswer σ)) :
    (answers.flatMap LevelAnswer.lines).filterMap scoped? =
      (answers.filter LevelAnswer.succeeds).map (·.request) := by
  induction answers with
  | nil => rfl
  | cons a answers ih =>
    rw [List.flatMap_cons, List.filterMap_append, ih]
    unfold LevelAnswer.lines
    rw [List.filterMap_append, scoped?_note, List.nil_append]
    cases hs : a.succeeds <;> simp [hs, scoped?]

/-- **An operation that sets levels**, in the session that it enters: the first `k` requests of the trail
    are passed on, the body comes to `outcome` in the run `r'`, and then the session is closed. -/
structure SetsPrefix (s : Service σ S) (name : String) (r : Run σ) (workspace : String) (session : S)
    (requests : List LevelRequest) (trail : List (LevelAnswer σ)) (result : Outcome Unit × Run σ)
    (k : Nat) (outcome : Outcome Unit) (r' : Run σ) : Prop where
  trail_eq : trail = s.levelTrail session requests (s.entered name workspace r).state
  asked : trail.map (·.request) = requests
  course : LevelsCourse trail (s.entered name workspace r) k outcome r'
  closed : result = s.finish session outcome r'
  calls : result.2.calls =
    r.calls ++ [⟨.resolve name, r.fired⟩, ⟨.connect workspace, false⟩] ++
      (trail.take k).map (fun a => ⟨update a.request, false⟩) ++ [⟨.close, r'.fired⟩]
  /-- One line for each level that was set, in their order, and for no other. -/
  said : result.2.log.filterMap scoped? =
    r.log.filterMap scoped? ++ ((trail.take k).filter LevelAnswer.succeeds).map (·.request)
  informs : ∀ line ∈ result.2.log, ∀ request, scoped? line = some request → line.level = .info
  done_iff : outcome = .done () ↔ k = trail.length ∧ ∀ a ∈ trail.take k, a.succeeds = true
  failing : ∀ a cause, (trail.take k).getLast? = some a → a.reply.inTime? = some (.error cause) →
    outcome = .failed (.update a.request.port cause)
  cancelled : outcome = .failed .cancelled →
    r'.fired = true ∧ ((trail.take k).filter LevelAnswer.succeeds).length < trail.length

/-- **Levels are set up to some point, in order.** The requests are taken as they were read, and answered
    one after the other. Only an update that fails, or a token that has fired while some of them remain,
    ends this before the last of them. -/
theorem setLevels_ordered_prefix (s : Service σ S) {name : String} {specs : List String} {r : Run σ}
    {requests : List LevelRequest} {workspace : String} {session : S}
    (hp : LevelRequest.parseAll specs = .ok requests) (he : s.Enters name r workspace session) :
    ∃ trail k outcome r',
      s.SetsPrefix name r workspace session requests trail (s.setLevels name specs r) k outcome r' := by
  have heq : s.setLevels name specs r =
      s.withSession name (fun _ session => s.applyLevels session requests) r := by
    unfold setLevels
    rw [hp]
  rw [heq, he.withSession_eq]
  obtain ⟨k, hk⟩ := s.applyLevels_course session requests (s.entered name workspace r)
  generalize (s.applyLevels session requests (s.entered name workspace r)).1 = outcome at hk ⊢
  generalize (s.applyLevels session requests (s.entered name workspace r)).2 = r' at hk ⊢
  refine ⟨_, k, outcome, r', rfl, s.levelTrail_requests session requests _, hk, rfl, ?_, ?_,
    fun _ _ _ h => level_of_scoped? h, hk.ended.done_iff, fun a cause => hk.ended.of_failing, ?_⟩
  · obtain ⟨-, hclose⟩ := s.finish_leads session outcome r'
    rw [hk.ended.returned] at hclose
    rw [hclose.calls, hk.calls, he.entered_calls]
    rfl
  · have hentered : (s.entered name workspace r).log.filterMap scoped? = r.log.filterMap scoped? :=
      (scoped?_call _ _ _).trans (scoped?_call _ _ _)
    rw [s.scoped?_finish session hk.ended.returned, hk.log, List.filterMap_append, hentered, scoped?_lines]
  · intro hc
    rw [hc] at hk
    exact hk.ended.cancelled_remains

/-- Collaborators whose second update fails, while the token fires. -/
def refusing : Service Script.State Unit where
  backend := Script.backend
    { workspaces := ["app"], updateErrors := [("3001", "denied")], moment := .update 2 }

/-- Of three levels the first is set, the second is refused, and the third is not asked for. -/
theorem setLevels_ordered_prefix_refused :
    LevelRequest.parseAll ["3000:public", "3001:org", "3002:private"] =
      .ok [⟨3000, "public"⟩, ⟨3001, "org"⟩, ⟨3002, "private"⟩] ∧
    refusing.Enters "app" { state := { ports := [] } } "app" () ∧
    (∃ trail k outcome r', refusing.SetsPrefix "app" { state := { ports := [] } } "app" ()
      [⟨3000, "public"⟩, ⟨3001, "org"⟩, ⟨3002, "private"⟩] trail
      (refusing.setLevels "app" ["3000:public", "3001:org", "3002:private"] { state := { ports := [] } })
      k outcome r') ∧
    (refusing.setLevels "app" ["3000:public", "3001:org", "3002:private"] { state := { ports := [] } }).1 =
      .failed (.update 3001 ⟨"denied", []⟩) := by
  have hp : LevelRequest.parseAll ["3000:public", "3001:org", "3002:private"] =
      .ok [⟨3000, "public"⟩, ⟨3001, "org"⟩, ⟨3002, "private"⟩] := rfl
  have he : refusing.Enters "app" { state := { ports := [] } } "app" () := ⟨rfl, rfl, rfl⟩
  exact ⟨hp, he, refusing.setLevels_ordered_prefix hp he, rfl⟩

end Service

end SharedPorts
