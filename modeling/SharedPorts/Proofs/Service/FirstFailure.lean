import SharedPorts.Proofs.Forward.FirstEnd
import SharedPorts.Proofs.Request
import SharedPorts.Proofs.Service.Levels
import SharedPorts.Proofs.Service.Metadata
import SharedPorts.Proofs.Service.Stages

/-!
# `SharedPorts.Proofs.Service.FirstFailure` — the earliest failure is the result

Each of the three operations has a body of its own, with ways to fail of its own: a listing fails with its
one query, a setting of levels with the first of its updates that is not met, and a group of forwards with
the first of its tasks to end. Here each body is told by what the session answers, and the three are put
among the stages that all operations share. For every answer and every moment at which the token fires,
the error is then that of the first stage to fail, and reading labels is none of the stages.

## Contents
- **Listing.** `Service.rows_silent` and `Service.leftover_silent`.
- **Levels.** `LevelsFail`, along a trail; `applyLevels_failed_iff`.
- **Forwards.** `Group.forwardTogether_silent`; how a group fails is its `Group.Verdict`.
- **Operations.** `Service.listing`, `Service.levelSetting` and `Service.forwarding`;
  `Service.listing_earliestWins` and `earliest_failure_wins`.
-/

namespace SharedPorts

variable {σ S : Type}

/-! ## Listing -/

namespace Service

/-- A listing reports nothing of closing in its session. -/
theorem rows_silent (s : Service σ S) (workspace : String) (session : S) (r : Run σ) :
    (s.rows workspace session r).2.closeFailures = r.closeFailures := by
  have hasked : (s.asked session r).closeFailures = r.closeFailures :=
    (Run.closeFailures_callUnlessFired _ _ _).trans (r.closeFailures_write_of rfl)
  have hcourse := s.rows_course workspace session r
  generalize s.rows workspace session r = result at hcourse ⊢
  cases hcourse with
  | fails _ => exact hasked
  | waits _ _ => exact hasked
  | rows _ hg _ =>
    cases hg with
    | labels _ => exact (Run.closeFailures_write_of _ rfl).trans hasked
    | warning _ => exact (Run.closeFailures_write_of _ rfl).trans hasked

/-- What is left of a fetch reports nothing of closing. -/
theorem leftover_silent (s : Service σ S) (name : String) (r : Run σ) (final : σ) :
    (s.leftover name r final).filterMap closeFailure? = [] := by
  rcases s.leftover_cases name r final with h | ⟨workspace, h⟩
  · rw [h]
    rfl
  · rw [h]
    rfl

end Service

/-! ## Levels -/

/-- A level whose answer is late is not known to be set. -/
theorem LevelAnswer.not_succeeds_of_late {a : LevelAnswer σ} (h : a.reply.late = true) :
    a.succeeds = false := by
  have hnone := (a.reply.inTime?_eq_none_iff).mpr h
  unfold succeeds
  rw [hnone]

/-- **How setting levels fails** along a trail: all requests before some request are met, and the update that
    it asks for fails. The token has fired before that update if it had at the beginning or fired during
    one of those before. -/
inductive LevelsFail (trail : List (LevelAnswer σ)) (fired : Bool) : ServiceError → Prop
  | at {before after : List (LevelAnswer σ)} {a : LevelAnswer σ} {e : ServiceError}
      (ht : trail = before ++ a :: after) (hs : ∀ b ∈ before, b.succeeds = true)
      (hf : CallFails (fired || before.any LevelAnswer.interrupts) a.reply (.update a.request.port) e) :
      LevelsFail trail fired e

/-- Where there is nothing to set, nothing fails. -/
theorem not_levelsFail_nil (fired : Bool) (e : ServiceError) :
    ¬ LevelsFail ([] : List (LevelAnswer σ)) fired e := by
  rintro ⟨ht, -, -⟩
  exact absurd ht (by simp)

/-- Setting levels fails at the first of them, or behind it. -/
theorem levelsFail_cons_iff (a : LevelAnswer σ) (trail : List (LevelAnswer σ)) (fired : Bool)
    (e : ServiceError) :
    LevelsFail (a :: trail) fired e ↔
      CallFails fired a.reply (.update a.request.port) e ∨
      (a.succeeds = true ∧ LevelsFail trail (fired || a.interrupts) e) := by
  constructor
  · rintro ⟨ht, hs, hf⟩
    rename_i before after b
    cases before with
    | nil =>
      obtain ⟨rfl, -⟩ := List.cons.inj ht
      rw [List.any_nil, Bool.or_false] at hf
      exact Or.inl hf
    | cons c before =>
      obtain ⟨rfl, rfl⟩ := List.cons.inj ht
      rw [List.any_cons, ← Bool.or_assoc] at hf
      exact Or.inr ⟨hs _ List.mem_cons_self, rfl, fun b hb => hs b (List.mem_cons_of_mem _ hb), hf⟩
  · rintro (hf | ⟨ha, ht, hs, hf⟩)
    · refine ⟨(List.nil_append _).symm, fun _ h => absurd h List.not_mem_nil, ?_⟩
      rw [List.any_nil, Bool.or_false]
      exact hf
    · rename_i before after b
      refine ⟨(by rw [ht, List.cons_append] : a :: trail = (a :: before) ++ b :: after), ?_, ?_⟩
      · intro c hc
        rcases List.mem_cons.mp hc with rfl | hc
        · exact ha
        · exact hs c hc
      · rw [List.any_cons, ← Bool.or_assoc]
        exact hf

/-- Behind a token that has fired there is only one way to fail. -/
theorem LevelsFail.of_fired {trail : List (LevelAnswer σ)} {e : ServiceError}
    (h : LevelsFail trail true e) : e = .cancelled := by
  obtain ⟨-, -, hf⟩ := h
  rw [Bool.true_or] at hf
  exact (callFails_iff_of_cancelled (Or.inl rfl)).mp hf

namespace Service

theorem applyLevels_failed_iff (s : Service σ S) (session : S) (requests : List LevelRequest) (r : Run σ)
    (e : ServiceError) :
    (s.applyLevels session requests r).1 = .failed e ↔
      LevelsFail (s.levelTrail session requests r.state) r.fired e := by
  -- each update may change the run that the next one starts from
  induction requests generalizing r with
  | nil => exact ⟨fun h => absurd h (by simp [applyLevels]), fun h => absurd h (not_levelsFail_nil _ _)⟩
  | cons request requests ih =>
    have hstep := s.applyLevels_step session request requests r
    unfold levelTrail
    dsimp only
    rw [levelsFail_cons_iff]
    generalize s.levelAnswer session request r.state = a at hstep ⊢
    generalize s.applyLevels session (request :: requests) r = result at hstep ⊢
    have hfailed : ∀ e' : ServiceError, (Outcome.failed e' : Outcome Unit) = .failed e ↔ e = e' :=
      fun e' => (Outcome.failed.injEq e' e).to_iff.trans eq_comm
    cases hstep with
    | unbegun hf =>
      rw [hfailed, hf, Bool.true_or, callFails_iff_of_cancelled (Or.inl rfl)]
      exact ⟨Or.inl, fun h => h.elim id fun h => h.2.of_fired⟩
    | abandoned hf hl =>
      rw [hfailed, callFails_iff_of_cancelled (Or.inr hl), LevelAnswer.not_succeeds_of_late hl]
      simp
    | @failed cause hf hc =>
      obtain ⟨hl, hv⟩ := (a.reply.inTime?_eq_some_iff _).mp hc
      have hnot : ¬ a.succeeds = true := fun hs => absurd (hc.symm.trans (a.succeeds_iff.mp hs)) (by simp)
      rw [hfailed, callFails_iff_of_error hf hl hv]
      exact ⟨Or.inl, fun h => h.elim id fun h => absurd h.1 hnot⟩
    | set hf hs =>
      obtain ⟨hl, hv⟩ := (a.reply.inTime?_eq_some_iff _).mp (a.succeeds_iff.mp hs)
      have hafter : (afterLevel a r).fired = (r.fired || a.interrupts) := afterLevel_fired a r
      have hstate : (afterLevel a r).state = a.reply.state := rfl
      rw [ih, hafter, hstate]
      exact ⟨fun h => Or.inr ⟨hs, h⟩, fun h => h.elim (fun h => absurd h (not_callFails hf hl hv)) And.right⟩

/-- Setting levels reports nothing of closing. -/
theorem applyLevels_silent (s : Service σ S) (session : S) (requests : List LevelRequest) (r : Run σ) :
    (s.applyLevels session requests r).2.closeFailures = r.closeFailures := by
  have hlines : ∀ answers : List (LevelAnswer σ),
      (answers.flatMap LevelAnswer.lines).filterMap closeFailure? = [] := by
    intro answers
    refine List.filterMap_eq_nil_iff.mpr ?_
    intro line hline
    obtain ⟨a, -, hline⟩ := List.mem_flatMap.mp hline
    unfold LevelAnswer.lines at hline
    rcases List.mem_append.mp hline with hline | hline
    · obtain ⟨n, -, rfl⟩ := List.mem_map.mp hline
      rfl
    · split at hline
      · rw [List.mem_singleton.mp hline]
        rfl
      · exact absurd hline List.not_mem_nil
  obtain ⟨k, hk⟩ := s.applyLevels_course session requests r
  unfold Run.closeFailures
  rw [hk.log, List.filterMap_append, hlines, List.append_nil]

end Service

/-! ## Forwards -/

namespace Group

variable {busy : Port → Option SystemError} {create : String → Int → σ → Reply σ Forwarder}
variable {pairs : List ForwardRequest} {r : Run σ}

/-- A first turn reports nothing of closing. -/
theorem start_silent (g : Group σ) (i : Nat) (pair : ForwardRequest) :
    (g.start busy create i pair).run.closeFailures = g.run.closeFailures := by
  have hbound : (g.boundRun create pair).closeFailures = g.run.closeFailures :=
    (Run.closeFailures_call _ _ _).trans (g.run.closeFailures_write_of rfl)
  cases hb : g.bindFault? busy pair.localPort with
  | some e => rw [start_unbound hb]
  | none =>
    rw [start_bound hb]
    cases firstEnd? (g.created create pair).value (g.firedAt create pair) with
    | none => exact hbound
    | some first =>
      exact (Run.closeFailures_write_of _ (closeFailure?_notes first.2)).trans hbound

theorem before_silent (i : Nat) : (before busy create r pairs i).run.closeFailures = r.closeFailures := by
  induction i with
  | zero => rfl
  | succ i ih =>
    cases hp : pairs[i]? with
    | some pair => rw [before_succ hp, start_silent, ih]
    | none =>
      have hi : pairs.length ≤ i := List.getElem?_eq_none_iff.mp hp
      unfold before at ih ⊢
      rw [List.take_of_length_le hi] at ih
      rw [List.take_of_length_le (Nat.le_succ_of_le hi), ih]

theorem unwind_silent (g : Group σ) : g.unwind.run.closeFailures = g.run.closeFailures := by
  have hdiscarded : ∀ others : List Ended,
      (others.map fun e => LogLine.discarded e.error).filterMap closeFailure? = [] := by
    intro others
    rw [List.filterMap_map]
    exact List.filterMap_eq_nil_iff.mpr fun _ _ => rfl
  have hfarewells : ∀ tasks : List Task,
      (tasks.flatMap fun t => t.forwarder.farewell.map LogLine.note).filterMap closeFailure? = [] := by
    intro tasks
    refine List.filterMap_eq_nil_iff.mpr ?_
    intro line hline
    obtain ⟨t, -, hline⟩ := List.mem_flatMap.mp hline
    obtain ⟨n, -, rfl⟩ := List.mem_map.mp hline
    rfl
  have key : ∀ others : List Ended,
      (((g.discard (g.ended.drop 1)).cancelAll).discard others).run.closeFailures = g.run.closeFailures :=
    fun others => (Run.closeFailures_write_of _ (hdiscarded others)).trans
      ((Run.closeFailures_write_of _ (hfarewells _)).trans (Run.closeFailures_write_of _ (hdiscarded _)))
  unfold unwind
  split
  · exact key _
  · exact key _

variable (busy create pairs r) in
/-- Forwarding reports nothing of closing. -/
theorem forwardTogether_silent : (forwardTogether busy create pairs r).2.closeFailures = r.closeFailures := by
  cases hs : (before busy create r pairs pairs.length).settle with
  | none =>
    rw [forwardTogether_of_wait hs]
    exact before_silent pairs.length
  | some g =>
    have hsettled : g.run.closeFailures = (before busy create r pairs pairs.length).run.closeFailures := by
      rcases settle_cases hs with ⟨-, rfl⟩ | ⟨t, -, how, -, rfl⟩ | rfl
      · exact unwind_silent _
      · exact unwind_silent (Group.stop _ t how)
      · exact unwind_silent (Group.fire _)
    rw [forwardTogether_of_settle hs]
    exact hsettled.trans (before_silent pairs.length)

end Group

/-! ## Operations -/

namespace Service

/-- Listing, as an operation: there is nothing to read. -/
def listing (s : Service σ S) : Operation σ S Unit (List ListingRow) where
  service := s
  requests := .ok ()
  work := fun _ => s.rows
  malformed := fun _ => False
  fails := fun _ => s.ListingFails
  waits := fun _ => s.ListingWaits
  malformed_iff := fun e => ⟨fun h => absurd h (by simp), False.elim⟩
  fails_iff := fun _ => s.rows_failed_iff
  waits_iff := fun _ => s.rows_waiting_iff
  silent := fun _ => s.rows_silent

/-- Setting levels, as an operation: it never waits. -/
def levelSetting (s : Service σ S) (specs : List String) : Operation σ S (List LevelRequest) Unit where
  service := s
  requests := LevelRequest.parseAll specs
  work := fun requests _ session => s.applyLevels session requests
  malformed := FirstMalformed LevelRequest.parse specs
  fails := fun requests session r => LevelsFail (s.levelTrail session requests r.state) r.fired
  waits := fun _ _ _ _ => False
  malformed_iff := mapM_eq_error_iff_first LevelRequest.parse specs
  fails_iff := fun requests _ session => s.applyLevels_failed_iff session requests
  waits_iff := by
    intro requests _ session r
    obtain ⟨k, hk⟩ := s.applyLevels_course session requests r
    refine ⟨fun h => ?_, False.elim⟩
    exact absurd hk.ended.returned (by simp [h, Outcome.returned])
  silent := fun requests _ session => s.applyLevels_silent session requests

/-- Forwarding, as an operation: a group fails with the error of the first of its tasks to end. -/
def forwarding (s : Service σ S) (specs : List String) : Operation σ S (List ForwardRequest) Unit where
  service := s
  requests := ForwardRequest.parseAll specs
  work := fun pairs _ session => forwardTogether s.busy (s.backend.forwarder session) pairs
  malformed := FirstMalformed ForwardRequest.parse specs
  fails := fun pairs session r e => Group.Verdict s.busy (s.backend.forwarder session) r pairs (.failed e)
  waits := fun pairs _ session r => Group.Endless s.busy (s.backend.forwarder session) r pairs
  malformed_iff := mapM_eq_error_iff_first ForwardRequest.parse specs
  fails_iff := fun pairs _ _ r e => Group.outcome_eq_iff_verdict _ _ pairs r (.failed e)
  waits_iff := fun pairs _ _ r => Group.waiting_iff_endless _ _ pairs r
  silent := fun pairs _ _ r => Group.forwardTogether_silent _ _ pairs r

/-- Entering a session does not read the repository, and does not wait. -/
theorem enters_withReading {s : Service σ S} {name workspace : String} {session : S} {r : Run σ}
    (h : s.Enters name r workspace session) (read : String → σ → Fetch) (deadline : Option Nat) :
    (s.withReading read).Enters name (r.withDeadline deadline) workspace session :=
  ⟨h.resolved, h.unfired, h.opened⟩

/-- **Reading labels is not a stage**: what fails does so however the repository is read, as long as the
    listing comes to an end. -/
theorem fails_withReading {s : Service σ S} {name : String} {r : Run σ} {stage : Stage} {e : ServiceError}
    (h : s.listing.Fails name r stage e) (read : String → σ → Fetch) (deadline : Option Nat)
    (hw : ¬ (s.withReading read).listing.Waits name (r.withDeadline deadline)) :
    (s.withReading read).listing.Fails name (r.withDeadline deadline) stage e := by
  cases h with
  | malformed h => exact .malformed h
  | noWorkspaces hr => exact .noWorkspaces hr
  | unresolved hr => exact .unresolved hr
  | unopened hr ho => exact .unopened hr ho
  | body hq he hb => exact .body hq (enters_withReading he read deadline) hb
  | @closing q workspace session cause hq he _ hc =>
    have he' := enters_withReading he read deadline
    refine .closing hq he' (fun hwaits => hw ⟨q, workspace, session, ⟨hq, he'⟩, hwaits⟩) ?_
    -- the session is closed in the state that the query left
    have hstate := s.rows_state workspace session (s.entered name workspace r)
    have hstate' := (s.withReading read).rows_state workspace session
      ((s.withReading read).entered name workspace (r.withDeadline deadline))
    have hasked : ((s.withReading read).asked session
        ((s.withReading read).entered name workspace (r.withDeadline deadline))).state =
          (s.asked session (s.entered name workspace r)).state := by
      show (s.asked session ((s.entered name workspace r).withDeadline deadline)).state = _
      rw [asked_withDeadline]
      rfl
    have hsame := hstate'.trans (hasked.trans hstate.symm)
    have hclose : ∀ state, state = (s.rows workspace session (s.entered name workspace r)).2.state →
        (s.backend.close session state).value = .error cause := by
      rintro state rfl
      exact hc
    exact hclose _ hsame

/-- **In a listing the earliest failure wins**, and what is left of its fetch changes nothing of this. -/
theorem listing_earliestWins (s : Service σ S) (name : String) (r : Run σ) :
    s.listing.EarliestWins name r (s.list name r) := by
  have hrun : s.listing.EarliestWins name r (s.withSession name s.rows r) := s.listing.earliestWins name r
  rcases s.list_cases name r with ⟨-, hlist⟩ | ⟨-, e, r', hw, hlist⟩
  · rw [hlist]
    exact hrun
  · rw [hw] at hrun
    obtain ⟨causes, hcauses, hwarned⟩ := hrun.warned
    rw [hlist]
    refine ⟨hrun.decides, ⟨causes, ?_, hwarned⟩, fun _ _ _ => warn_of_closeFailure?⟩
    rw [Run.closeFailures_write_of _ (s.leftover_silent name r _)]
    exact hcauses

/-- **The earliest failure is the result**, in every operation, whatever fails besides it and whenever the
    token fires; and reading labels is not among the stages that can fail. -/
theorem earliest_failure_wins (s : Service σ S) (name : String) (specs : List String) (r : Run σ) :
    s.listing.EarliestWins name r (s.list name r) ∧
    (s.levelSetting specs).EarliestWins name r (s.setLevels name specs r) ∧
    (s.forwarding specs).EarliestWins name r (s.forward name specs r) ∧
    ∀ read deadline, (s.list name r).1.returned = true →
      ((s.withReading read).list name (r.withDeadline deadline)).1.returned = true →
      ∀ stage e, (s.withReading read).listing.Fails name (r.withDeadline deadline) stage e ↔
        s.listing.Fails name r stage e := by
  have hlevels : (s.levelSetting specs).run name r = s.setLevels name specs r := by
    unfold Operation.run setLevels
    cases h : LevelRequest.parseAll specs <;> simp [levelSetting, h]
  have hforward : (s.forwarding specs).run name r = s.forward name specs r := by
    unfold Operation.run forward
    cases h : ForwardRequest.parseAll specs <;> simp [forwarding, h]
  refine ⟨s.listing_earliestWins name r, ?_, ?_, ?_⟩
  · rw [← hlevels]
    exact (s.levelSetting specs).earliestWins name r
  · rw [← hforward]
    exact (s.forwarding specs).earliestWins name r
  · intro read deadline h h' stage e
    -- a listing that has come to an end does not wait for ever
    have hnot : ∀ (s : Service σ S) (r : Run σ), (s.list name r).1.returned = true →
        ¬ s.listing.Waits name r := by
      intro s r hreturned hwaits
      rw [(s.listing_earliestWins name r).decides.waiting_iff.mpr hwaits] at hreturned
      exact absurd hreturned (by simp [Outcome.returned])
    constructor
    · intro hfails
      exact fails_withReading hfails s.backend.labels r.deadline (hnot s r h)
    · intro hfails
      exact fails_withReading hfails read deadline (hnot _ _ h')

/-- Collaborators whose query fails, and who cannot close either. -/
def failingTwice : Service Script.State Unit where
  backend := Script.backend
    { workspaces := ["app"], queryError := some "session lost", closeError := some "relay gone" }

/-- A port is shared. -/
def sharedOnce : Run Script.State where
  state := { ports := [⟨8080, "org"⟩] }

/-- A listing whose query and close both fail has the error of its query and one warning, and the stages fail
    alike where reading hangs. -/
theorem earliest_failure_wins_twice :
    (failingTwice.list "app" sharedOnce).1 = .failed (.query { message := "session lost" }) ∧
    (failingTwice.list "app" sharedOnce).2.closeFailures = [{ message := "relay gone" }] ∧
    (∃ stage, failingTwice.listing.FailsFirst "app" sharedOnce stage (.query { message := "session lost" })) ∧
    (failingTwice.withReading hanging).listing.Fails "app" (sharedOnce.withDeadline none) .closing
      (.close { message := "relay gone" }) := by
  have hfailed : (failingTwice.list "app" sharedOnce).1 = .failed (.query { message := "session lost" }) := by
    rfl
  have hhangs : ((failingTwice.withReading hanging).list "app"
      (sharedOnce.withDeadline none)).1 = .failed (.query { message := "session lost" }) := by
    rfl
  obtain ⟨hlist, -, -, halike⟩ := earliest_failure_wins failingTwice "app" [] sharedOnce
  refine ⟨hfailed, rfl, (hlist.decides.failed_iff _).mp hfailed, ?_⟩
  refine (halike hanging none (by rw [hfailed]; rfl) (by rw [hhangs]; rfl) _ _).mpr ?_
  have henters : failingTwice.Enters "app" sharedOnce "app" () := ⟨rfl, rfl, rfl⟩
  exact .closing (q := ()) rfl henters (fun h => absurd h.listed (by rintro ⟨ports, hl⟩; cases hl)) rfl

end Service

end SharedPorts
