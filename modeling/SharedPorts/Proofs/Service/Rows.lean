import SharedPorts.Proofs.Service.Sessions

/-!
# `SharedPorts.Proofs.Service.Rows` — what a listing does in its session

A listing asks its session for the shared ports, and then awaits their labels. The first may fail, and the
second may have no end; otherwise there are rows. What a fetch of labels comes to is said here without
running it, by when its reading ends and when the token fires: `Fetch.Yields`, `Fetch.Misses` and
`Fetch.Endless` exclude each other, and one of them holds of every fetch.

## Contents
- **Readings.** `Reading.Brings` and `Reading.Fails`.
- **Fetches.** `Fetch.InTime`, that a reading ends before the token fires; what a wait for labels comes to,
  `Fetch.await_result`, and what is logged where nobody waits, `Fetch.leftover_cases`.
- **Queries.** `Service.asked`, `Service.Answers` and `Service.ListingFails`.
- **Rows.** `Service.RowsCourse`, what a listing comes to in its session; `Service.ListingWaits`;
  `rows_leads`, its trace.
- **Listings.** `Service.Lists`, that the ports are there in time; `list_cases`, a listing as work in a
  session and what is left of its fetch.
-/

namespace SharedPorts

variable {σ S : Type}

/-! ## Readings -/

/-- What was read are labels: those of a file, or none where there is no file. -/
inductive Reading.Brings : Reading → PortLabels → Prop
  | found {bytes : Bytes} {labels : PortLabels} (h : PortLabels.ofFile bytes = .ok labels) :
      Brings (.found bytes) labels
  | missing : Brings .missing .empty

/-- What was read are no labels. -/
inductive Reading.Fails : Reading → LabelsError → Prop
  | found {bytes : Bytes} {e : LabelsError} (h : PortLabels.ofFile bytes = .error e) : Fails (.found bytes) e
  | fails (cause : Cause) : Fails (.fails cause) (.fetch cause)
  | dies : Fails .dies .abandoned

/-- A reading brings labels or fails, and its answer says which. -/
theorem Reading.labels_cases (reading : Reading) :
    (∃ labels, reading.Brings labels ∧ reading.labels = .ok labels) ∨
      ∃ e, reading.Fails e ∧ reading.labels = .error e := by
  cases reading with
  | found bytes =>
    cases h : PortLabels.ofFile bytes with
    | ok labels => exact Or.inl ⟨labels, .found h, h⟩
    | error e => exact Or.inr ⟨e, .found h, h⟩
  | missing => exact Or.inl ⟨.empty, .missing, rfl⟩
  | fails cause => exact Or.inr ⟨_, .fails cause, rfl⟩
  | dies => exact Or.inr ⟨_, .dies, rfl⟩

/-- A reading that brings labels does not fail. -/
theorem Reading.Brings.not_fails {reading : Reading} {labels : PortLabels} {e : LabelsError}
    (h : reading.Brings labels) : ¬ reading.Fails e := by
  intro hf
  cases h with
  | found h =>
    cases hf with
    | found h' => exact absurd (h.symm.trans h') (by simp)
  | missing => cases hf

/-! ## Fetches -/

namespace Fetch

section

variable (f : Fetch) (fired : Bool) (deadline : Option Nat)

/-- **A reading ends before the token fires.** `fired` says whether the token has fired when the labels are
    awaited, and `deadline` when it will. -/
inductive InTime : Prop
  | ahead (hp : f.pace = .ahead)
  | awaited {time : Nat} (hp : f.pace = .after time) (hf : fired = false)
      (hd : ∀ t, deadline = some t → time ≤ t)

/-- A fetch yields labels. -/
structure Yields (labels : PortLabels) : Prop where
  inTime : f.InTime fired deadline
  brings : f.reading.Brings labels

/-- **A fetch yields no labels**: its reading fails in time, or the token fires before its end. -/
inductive Misses : LabelsError → Prop
  | failed {e : LabelsError} (h : f.InTime fired deadline) (hr : f.reading.Fails e) : Misses e
  | cancelled (h : ¬ f.InTime fired deadline) (hf : fired = true ∨ deadline ≠ none) : Misses .cancelled

/-- A fetch has no end. -/
structure Endless : Prop where
  never : f.pace = .never
  unfired : fired = false
  undated : deadline = none

/-- What a wait for labels comes to. The token stays fired once it has fired. -/
inductive Result : Option (Except LabelsError PortLabels × Bool) → Prop
  | yields {labels : PortLabels} {fired' : Bool} (h : f.Yields fired deadline labels)
      (hf : fired = true → fired' = true) : Result (some (.ok labels, fired'))
  | misses {e : LabelsError} {fired' : Bool} (h : f.Misses fired deadline e)
      (hf : fired = true → fired' = true) : Result (some (.error e, fired'))
  | endless (h : f.Endless fired deadline) : Result none

end

variable {f : Fetch} {fired : Bool} {deadline : Option Nat} {labels : PortLabels} {e : LabelsError}

/-- A reading that ends in time settles its fetch. -/
theorem InTime.result {fired' : Bool} (h : f.InTime fired deadline) (hf : fired = true → fired' = true) :
    f.Result fired deadline (some (f.reading.labels, fired')) := by
  rcases f.reading.labels_cases with ⟨labels, hb, hl⟩ | ⟨e, he, hl⟩
  · rw [hl]
    exact .yields ⟨h, hb⟩ hf
  · rw [hl]
    exact .misses (.failed h he) hf

theorem not_inTime_of_never (hp : f.pace = .never) : ¬ f.InTime fired deadline := by
  rintro (h | ⟨h, -, -⟩)
  · exact absurd (hp.symm.trans h) (by simp)
  · exact absurd (hp.symm.trans h) (by simp)

/-- **The end of the wait for labels.** -/
theorem await_result (f : Fetch) (fired : Bool) (deadline : Option Nat) :
    f.Result fired deadline (f.await fired deadline) := by
  unfold await
  cases hp : f.pace with
  | ahead => exact InTime.result (.ahead hp) id
  | after time =>
    dsimp only
    by_cases hcut : (fired || deadline.any (· < time)) = true
    · rw [if_pos hcut]
      -- the token fires first, now or within the time that the reading takes
      have hlate : fired = true ∨ ∃ t, deadline = some t ∧ t < time := by
        rw [Bool.or_eq_true, Option.any_eq_true] at hcut
        exact hcut.imp id fun ⟨t, hd, ht⟩ => ⟨t, hd, of_decide_eq_true ht⟩
      refine .misses (.cancelled ?_ (hlate.imp id fun ⟨t, hd, _⟩ => by simp [hd])) fun _ => rfl
      rintro (h | ⟨h, hf, hd⟩)
      · exact absurd (hp.symm.trans h) (by simp)
      · obtain rfl := Pace.after.inj (hp.symm.trans h)
        rcases hlate with hfired | ⟨t, ht, hlt⟩
        · exact absurd (hf.symm.trans hfired) (by simp)
        · exact absurd (hd t ht) (Nat.not_le_of_lt hlt)
    · rw [if_neg hcut]
      simp only [Bool.or_eq_true, not_or, Bool.not_eq_true, Option.any_eq_false] at hcut
      have htime : f.InTime fired deadline :=
        .awaited hp hcut.1 fun t ht => Nat.le_of_not_lt (of_decide_eq_false (hcut.2 t ht))
      exact htime.result fun hf => absurd (hcut.1.symm.trans hf) (by simp)
  | never =>
    dsimp only
    have hnot : ¬ f.InTime fired deadline := not_inTime_of_never hp
    cases fired with
    | true => exact .misses (.cancelled hnot (Or.inl rfl)) fun _ => rfl
    | false =>
      cases deadline with
      | some t => exact .misses (.cancelled hnot (Or.inr (by simp))) fun _ => rfl
      | none => exact .endless ⟨hp, rfl, rfl⟩

/-- A reading that has ended keeps its labels, though the token fires before anybody awaits them. -/
example : ({ reading := .missing, pace := .ahead } : Fetch).await true none = some (.ok .empty, true) := rfl

/-- What is logged of a fetch that was given up is a line just if its task is still there. -/
theorem leftover_cases (f : Fetch) (workspace : String) :
    (f.lingers = true ∧ f.pace ≠ .ahead) ∧ f.leftover workspace = [.labelsUnread workspace] ∨
      ¬ (f.lingers = true ∧ f.pace ≠ .ahead) ∧ f.leftover workspace = [] := by
  have hiff : (f.lingers && f.pace != .ahead) = true ↔ f.lingers = true ∧ f.pace ≠ .ahead := by
    rw [Bool.and_eq_true, bne_iff_ne]
  unfold leftover
  by_cases h : (f.lingers && f.pace != .ahead) = true
  · rw [if_pos h]
    exact Or.inl ⟨hiff.mp h, rfl⟩
  · rw [if_neg h]
    exact Or.inr ⟨fun hthere => h (hiff.mpr hthere), rfl⟩

/-- A fetch that yields labels misses none. -/
theorem Yields.not_misses (h : f.Yields fired deadline labels) : ¬ f.Misses fired deadline e := by
  rintro (⟨-, hr⟩ | ⟨hnot, -⟩)
  · exact h.brings.not_fails hr
  · exact hnot h.inTime

/-- A fetch that has no end neither yields labels nor misses them. -/
theorem Endless.not_yields (h : f.Endless fired deadline) : ¬ f.Yields fired deadline labels :=
  fun hy => not_inTime_of_never h.never hy.inTime

theorem Endless.not_misses (h : f.Endless fired deadline) : ¬ f.Misses fired deadline e := by
  rintro (⟨ht, -⟩ | ⟨-, hf | hd⟩)
  · exact not_inTime_of_never h.never ht
  · exact absurd (h.unfired.symm.trans hf) (by simp)
  · exact hd h.undated

end Fetch

/-! ## Queries -/

namespace Service

/-- The run once the ports were asked for. -/
def asked (s : Service σ S) (session : S) (r : Run σ) : Run σ :=
  ((r.write [.loading]).callUnlessFired .list (s.backend.sharedPorts session)).2

/-- The session answers with its ports, and in time. -/
structure Answers (s : Service σ S) (session : S) (r : Run σ) (ports : List SharedPort) : Prop where
  unfired : r.fired = false
  listed : (s.backend.sharedPorts session r.state).inTime? = some (.ok ports)

/-- **How a listing fails** in its session: what the session answers about its ports is an error, or the
    token fires before the answer is there. Labels have no part in it. -/
def ListingFails (s : Service σ S) (session : S) (r : Run σ) : ServiceError → Prop :=
  CallFails r.fired (s.backend.sharedPorts session r.state) .query

/-- The run behind an answer. -/
theorem Answers.asked_eq {s : Service σ S} {session : S} {r : Run σ} {ports : List SharedPort}
    (h : s.Answers session r ports) :
    s.asked session r = ((r.write [.loading]).call .list (s.backend.sharedPorts session)).2 := by
  unfold asked Run.callUnlessFired
  rw [show (r.write [.loading]).fired = false from h.unfired]
  rfl

/-- A session that answers does not fail. -/
theorem Answers.not_fails {s : Service σ S} {session : S} {r : Run σ} {ports : List SharedPort}
    {e : ServiceError} (h : s.Answers session r ports) : ¬ s.ListingFails session r e := by
  obtain ⟨hlate, hvalue⟩ := (Reply.inTime?_eq_some_iff _ _).mp h.listed
  exact not_callFails h.unfired hlate hvalue

/-- A session that does not answer fails. -/
theorem exists_listingFails {s : Service σ S} {session : S} {r : Run σ}
    (h : ∀ ports, ¬ s.Answers session r ports) : ∃ e, s.ListingFails session r e := by
  cases hf : r.fired with
  | true => exact ⟨_, .cancelled (Or.inl hf)⟩
  | false =>
    cases hl : (s.backend.sharedPorts session r.state).late with
    | true => exact ⟨_, .cancelled (Or.inr hl)⟩
    | false =>
      cases hv : (s.backend.sharedPorts session r.state).value with
      | error cause => exact ⟨_, .refused hf hl hv⟩
      | ok ports => exact absurd ⟨hf, (Reply.inTime?_eq_some_iff _ _).mpr ⟨hl, hv⟩⟩ (h ports)

/-- A query is one call at most. -/
theorem asked_leads (s : Service σ S) (session : S) (r : Run σ) :
    ∃ trace, r.Leads trace (s.asked session r) ∧ SessionWork (· <+: [.list]) trace := by
  have hw := r.leads_write [.loading]
  unfold asked
  rcases (r.write [.loading]).callUnlessFired_cases .list (s.backend.sharedPorts session) with
    ⟨-, h⟩ | ⟨hf, h⟩
  · rw [h]
    exact ⟨[], hw, sessionWork_nil List.nil_prefix⟩
  · rw [h]
    have hc := hw.trans ((r.write [.loading]).leads_call .list (s.backend.sharedPorts session))
    rw [hf, List.nil_append] at hc
    exact ⟨[⟨.list, false⟩], hc, sessionWork_singleton List.prefix_rfl rfl⟩

/-! ## Rows -/

/-- The fetch of labels that a listing awaits. -/
def fetched (s : Service σ S) (workspace : String) (session : S) (r : Run σ) : Fetch :=
  s.backend.labels workspace (s.asked session r).state

/-- **What a listing goes on with** behind its query: labels, or a warning in their place. -/
inductive GoesOnWith (s : Service σ S) (workspace : String) (session : S) (r : Run σ) :
    PortLabels → List LogLine → Prop
  | labels {labels : PortLabels}
      (h : (s.fetched workspace session r).Yields (s.asked session r).fired r.deadline labels) :
      GoesOnWith s workspace session r labels []
  | warning {e : LabelsError}
      (h : (s.fetched workspace session r).Misses (s.asked session r).fired r.deadline e) :
      GoesOnWith s workspace session r .empty [.labelsMissing e]

/-- **The work of a listing.** It fails where its query does; otherwise it awaits the labels, which may have
    no end, and comes to rows. -/
inductive RowsCourse (s : Service σ S) (workspace : String) (session : S) (r : Run σ) :
    Outcome (List ListingRow) × Run σ → Prop
  | fails {e : ServiceError} (h : s.ListingFails session r e) :
      RowsCourse s workspace session r (.failed e, s.asked session r)
  | waits {ports : List SharedPort} (h : s.Answers session r ports)
      (hw : (s.fetched workspace session r).Endless (s.asked session r).fired r.deadline) :
      RowsCourse s workspace session r (.waiting, s.asked session r)
  | rows {ports : List SharedPort} {labels : PortLabels} {warning : List LogLine} {fired : Bool}
      (h : s.Answers session r ports) (hg : s.GoesOnWith workspace session r labels warning)
      (hf : (s.asked session r).fired = true → fired = true) :
      RowsCourse s workspace session r
        (.done (listingRows labels workspace s.previewDomain ports),
          ({ s.asked session r with fired }).write warning)

theorem rows_course (s : Service σ S) (workspace : String) (session : S) (r : Run σ) :
    s.RowsCourse workspace session r (s.rows workspace session r) := by
  have hfails : ∀ e, heeded .query ((r.write [.loading]).callUnlessFired .list
      (s.backend.sharedPorts session)).1 = .error e ↔ s.ListingFails session r e :=
    heeded_eq_error_iff (r.write [.loading]) .list (s.backend.sharedPorts session) .query
  unfold rows
  cases hc : (r.write [.loading]).callUnlessFired .list (s.backend.sharedPorts session) with
  | mk result r₁ =>
    obtain rfl : s.asked session r = r₁ := by rw [asked, hc]
    rw [hc] at hfails
    cases result with
    | none => exact .fails ((hfails .cancelled).mp rfl)
    | some answer =>
      cases answer with
      | error cause => exact .fails ((hfails (.query cause)).mp rfl)
      | ok ports =>
        obtain ⟨hf, hv, hr₁⟩ := Run.callUnlessFired_eq_some hc
        have hanswers : s.Answers session r ports := ⟨hf, hv⟩
        have hdeadline : (s.asked session r).deadline = r.deadline := by rw [hr₁]; rfl
        have hresult : (s.fetched workspace session r).Result (s.asked session r).fired r.deadline
            ((s.backend.labels workspace (s.asked session r).state).await (s.asked session r).fired
              (s.asked session r).deadline) := by
          rw [hdeadline]
          exact Fetch.await_result _ _ _
        dsimp only
        generalize (s.backend.labels workspace (s.asked session r).state).await (s.asked session r).fired
          (s.asked session r).deadline = answer at hresult ⊢
        cases hresult with
        | yields h hkept =>
          have hcourse := RowsCourse.rows hanswers (.labels h) hkept
          rw [Run.write_nil] at hcourse
          exact hcourse
        | misses h hkept => exact .rows hanswers (.warning h) hkept
        | endless h => exact .waits hanswers h

/-- **Where a listing waits for ever**: its ports are there, reading the labels never ends, and the token
    does not fire. -/
structure ListingWaits (s : Service σ S) (workspace : String) (session : S) (r : Run σ) : Prop where
  unfired : r.fired = false
  listed : ∃ ports, (s.backend.sharedPorts session r.state).inTime? = some (.ok ports)
  quiet : (s.backend.sharedPorts session r.state).fired = false
  never : (s.backend.labels workspace (s.backend.sharedPorts session r.state).state).pace = .never
  undated : r.deadline = none

/-- Once the ports are there, a listing waits for ever just if it does so for their labels. -/
theorem Answers.endless_iff {s : Service σ S} {workspace : String} {session : S} {r : Run σ}
    {ports : List SharedPort} (h : s.Answers session r ports) :
    (s.fetched workspace session r).Endless (s.asked session r).fired r.deadline ↔
      s.ListingWaits workspace session r := by
  have hfired : (s.asked session r).fired = (s.backend.sharedPorts session r.state).fired := by
    obtain ⟨hlate, -⟩ := (Reply.inTime?_eq_some_iff _ _).mp h.listed
    rw [h.asked_eq]
    show (r.fired || (s.backend.sharedPorts session r.state).fired ||
      (s.backend.sharedPorts session r.state).late) = _
    rw [h.unfired, hlate, Bool.or_false, Bool.false_or]
  unfold fetched
  rw [hfired, h.asked_eq]
  constructor
  · rintro ⟨hnever, hquiet, hundated⟩
    exact ⟨h.unfired, ⟨ports, h.listed⟩, hquiet, hnever, hundated⟩
  · intro hw
    exact ⟨hw.never, hw.quiet, hw.undated⟩

/-- What a listing goes on with is there. -/
theorem GoesOnWith.not_endless {s : Service σ S} {workspace : String} {session : S} {r : Run σ}
    {labels : PortLabels} {warning : List LogLine} (h : s.GoesOnWith workspace session r labels warning) :
    ¬ (s.fetched workspace session r).Endless (s.asked session r).fired r.deadline := by
  intro he
  cases h with
  | labels h => exact he.not_yields h
  | warning h => exact he.not_misses h

theorem rows_waiting_iff (s : Service σ S) (workspace : String) (session : S) (r : Run σ) :
    (s.rows workspace session r).1 = .waiting ↔ s.ListingWaits workspace session r := by
  have hcourse := s.rows_course workspace session r
  generalize s.rows workspace session r = result at hcourse ⊢
  cases hcourse with
  | fails h =>
    refine iff_of_false (by simp) ?_
    rintro ⟨hf, ⟨ports, hl⟩, -⟩
    exact Answers.not_fails ⟨hf, hl⟩ h
  | waits h hw => exact iff_of_true rfl (h.endless_iff.mp hw)
  | rows h hg _ => exact iff_of_false (by simp) fun hw => hg.not_endless (h.endless_iff.mpr hw)

theorem rows_failed_iff (s : Service σ S) (workspace : String) (session : S) (r : Run σ) (e : ServiceError) :
    (s.rows workspace session r).1 = .failed e ↔ s.ListingFails session r e := by
  have hcourse := s.rows_course workspace session r
  generalize s.rows workspace session r = result at hcourse ⊢
  cases hcourse with
  | fails h =>
    constructor
    · intro he
      exact Outcome.failed.inj he ▸ h
    · intro he
      rw [CallFails.unique h he]
  | waits h _ => exact iff_of_false (by simp) h.not_fails
  | rows h _ _ => exact iff_of_false (by simp) h.not_fails

/-- A listing whose query fails has done nothing else. -/
theorem ListingFails.rows_eq {s : Service σ S} {session : S} {r : Run σ} {e : ServiceError}
    (h : s.ListingFails session r e) (workspace : String) :
    s.rows workspace session r = (.failed e, s.asked session r) := by
  have hcourse := s.rows_course workspace session r
  generalize s.rows workspace session r = result at hcourse ⊢
  cases hcourse with
  | fails h' => rw [CallFails.unique h h']
  | waits h' _ => exact absurd h h'.not_fails
  | rows h' _ _ => exact absurd h h'.not_fails

/-- Awaiting labels leaves the state as the query left it. -/
theorem rows_state (s : Service σ S) (workspace : String) (session : S) (r : Run σ) :
    (s.rows workspace session r).2.state = (s.asked session r).state := by
  have hcourse := s.rows_course workspace session r
  generalize s.rows workspace session r = result at hcourse ⊢
  cases hcourse <;> rfl

/-- **A listing** asks for the shared ports at most once. -/
theorem rows_leads (s : Service σ S) (workspace : String) (session : S) (r : Run σ) :
    ∃ trace, r.Leads trace (s.rows workspace session r).2 ∧ SessionWork (· <+: [.list]) trace := by
  obtain ⟨trace, hleads, hwork⟩ := s.asked_leads session r
  refine ⟨trace, ?_, hwork⟩
  have hcourse := s.rows_course workspace session r
  generalize s.rows workspace session r = result at hcourse ⊢
  cases hcourse with
  | fails _ => exact hleads
  | waits _ _ => exact hleads
  | @rows ports labels warning fired _ _ hf =>
    -- nothing is called once the ports are there
    have hawaited : (s.asked session r).Leads [] { s.asked session r with fired } := .of_eq rfl hf
    have hall := hleads.trans (hawaited.trans (Run.leads_write _ warning))
    rw [List.append_nil, List.append_nil] at hall
    exact hall

/-! ## Listings -/

/-- The session that `name` asks for lists its ports, and none of it too late. -/
structure Lists (s : Service σ S) (name : String) (r : Run σ) (workspace : String) (session : S)
    (ports : List SharedPort) : Prop where
  entered : s.Enters name r workspace session
  unfired : (s.entered name workspace r).fired = false
  listed : (s.backend.sharedPorts session (s.entered name workspace r).state).inTime? = some (.ok ports)

theorem Lists.answers {s : Service σ S} {name : String} {r : Run σ} {workspace : String} {session : S}
    {ports : List SharedPort} (h : s.Lists name r workspace session ports) :
    s.Answers session (s.entered name workspace r) ports := ⟨h.unfired, h.listed⟩

/-- One session lists its ports, and in one way. -/
theorem Lists.unique {s : Service σ S} {name : String} {r : Run σ} {workspace workspace' : String}
    {session session' : S} {ports ports' : List SharedPort} (h : s.Lists name r workspace session ports)
    (h' : s.Lists name r workspace' session' ports') :
    workspace = workspace' ∧ session = session' ∧ ports = ports' := by
  obtain ⟨rfl, rfl⟩ := h.entered.unique h'.entered
  obtain rfl := Except.ok.inj (Option.some.inj (h.listed.symm.trans h'.listed))
  exact ⟨rfl, rfl, rfl⟩

/-- What is logged of the fetch of labels that a listing gives up; `final` is the state at its end. -/
def leftover (s : Service σ S) (name : String) (r : Run σ) (final : σ) : List LogLine :=
  match (s.backend.resolve name r.state).value with
  | .error _ => []
  | .ok workspace => (s.backend.labels workspace final).leftover workspace

/-- **A listing is work in a session.** Where the ports are there in time, it is nothing else; where they are
    not, it fails, and the fetch of labels is given up behind it. -/
theorem list_cases (s : Service σ S) (name : String) (r : Run σ) :
    ((∃ workspace session ports, s.Lists name r workspace session ports) ∧
      s.list name r = s.withSession name s.rows r) ∨
    ((∀ workspace session ports, ¬ s.Lists name r workspace session ports) ∧
      ∃ e r', s.withSession name s.rows r = (.failed e, r') ∧
        s.list name r = (.failed e, r'.write (s.leftover name r r'.state))) := by
  unfold list withSession leftover
  -- along the stages of the listing: a stage that fails ends it, and its fetch is given up there
  cases hr : s.resolve name r with
  | mk chosen r₁ =>
    have hresolve := hr
    rw [s.resolve_eq] at hresolve
    obtain ⟨hchosen, rfl⟩ := Prod.mk.inj hresolve
    cases chosen with
    | error e =>
      obtain ⟨fault, hfault⟩ := exists_error_of_mapError hchosen
      refine Or.inr ⟨?_, e, s.afterResolve name r, rfl, ?_⟩
      · intro workspace session ports h
        exact absurd (h.entered.resolved.symm.trans hfault) (by simp)
      · rw [hfault, Run.write_nil]
    | ok workspace =>
      have hworkspace := mapError_eq_ok_iff.mp hchosen
      rw [hworkspace]
      dsimp only
      cases hc : s.connect workspace (s.afterResolve name r) with
      | mk opened r₂ =>
        cases opened with
        | error e =>
          refine Or.inr ⟨?_, e, r₂, rfl, rfl⟩
          intro workspace' session ports h
          obtain rfl := Except.ok.inj (h.entered.resolved.symm.trans hworkspace)
          exact absurd (h.entered.connect_eq.symm.trans hc) (by simp)
        | ok session =>
          obtain ⟨henters, rfl⟩ := enters_of_stages hr hc
          dsimp only
          have hcourse := s.rows_course workspace session (s.entered name workspace r)
          generalize s.rows workspace session (s.entered name workspace r) = result at hcourse ⊢
          cases hcourse with
          | @fails e h =>
            obtain ⟨r', hfinish⟩ := s.exists_finish_failed (α := List ListingRow) session e
              (s.asked session (s.entered name workspace r))
            refine Or.inr ⟨?_, e, r', hfinish, ?_⟩
            · intro workspace' session' ports h'
              obtain ⟨rfl, rfl⟩ := henters.unique h'.entered
              exact h'.answers.not_fails h
            · dsimp only
              rw [hfinish]
              rfl
          | waits h _ => exact Or.inl ⟨⟨_, _, _, henters, h.unfired, h.listed⟩, rfl⟩
          | rows h _ _ => exact Or.inl ⟨⟨_, _, _, henters, h.unfired, h.listed⟩, rfl⟩

end Service

end SharedPorts
