import SharedPorts.Proofs.Forward.Endings

/-!
# `SharedPorts.Proofs.Forward.FirstEnd` — whose error a group ends with

A group ends with the error of the first of its tasks to end, and with no other. Which task that is can be
told from the pairs alone, turn by turn: one that ends in its first turn comes before all that do not, and
among those the one with the lowest index; otherwise the earliest event decides, a stop or the token.
`Verdict` says so as a relation, with the error of each case written out, and the main statement is that it
holds of exactly one outcome, the one that the group comes to.

## Contents
- **Verdicts.** `Group.EndsFirst`, `Group.StopsFirst` and `Group.Endless`; `Group.Verdict`.
- **Serving.** The group where the pairs so far have not ended in their first turns.
- **Stops.** `earliest_iff`, the first stop by the indices of the tasks.
- **The result.** `Verdict.outcome_eq` and `exists_verdict`; `waiting_iff_endless` and
  `forwardTogether_first_end`.
-/

namespace SharedPorts

namespace Group

variable {σ : Type} {busy : Port → Option SystemError} {create : String → Int → σ → Reply σ Forwarder}
variable {r : Run σ} {pairs : List ForwardRequest} {i : Nat}

/-! ## Verdicts -/

/-- The forwarder that is created for a pair when it is the turn of the pair at `i`. -/
def forwarderAt (busy : Port → Option SystemError) (create : String → Int → σ → Reply σ Forwarder)
    (r : Run σ) (pairs : List ForwardRequest) (i : Nat) (pair : ForwardRequest) : Forwarder :=
  ((before busy create r pairs i).created create pair).value

/-- The pairs before the one at `i` serve after their first turns. -/
def ServingUpTo (busy : Port → Option SystemError) (create : String → Int → σ → Reply σ Forwarder)
    (r : Run σ) (pairs : List ForwardRequest) (i : Nat) : Prop :=
  ∀ j < i, ∀ pair, pairs[j]? = some pair → (before busy create r pairs j).Serves busy create pair

/-- The pair at `i` is the first to end, and does so in its first turn. -/
structure EndsFirst (busy : Port → Option SystemError) (create : String → Int → σ → Reply σ Forwarder)
    (r : Run σ) (pairs : List ForwardRequest) (i : Nat) (pair : ForwardRequest) (ending : TaskEnd) :
    Prop where
  place : pairs[i]? = some pair
  serving : ServingUpTo busy create r pairs i
  ends : (before busy create r pairs i).EndsAtOnce busy create pair ending

/-- No pair ends in its first turn, and the pair at `i` is the first to stop, at `time`, which is before the
    token fires. -/
structure StopsFirst (busy : Port → Option SystemError) (create : String → Int → σ → Reply σ Forwarder)
    (r : Run σ) (pairs : List ForwardRequest) (i : Nat) (pair : ForwardRequest) (time : Nat) (how : Stop) :
    Prop where
  place : pairs[i]? = some pair
  serving : ServingUpTo busy create r pairs pairs.length
  stops : (forwarderAt busy create r pairs i pair).script = some (time, how)
  first : ∀ j other time' how', pairs[j]? = some other →
    (forwarderAt busy create r pairs j other).script = some (time', how') →
      time ≤ time' ∧ (j < i → time < time')
  ahead : ∀ deadline, r.deadline = some deadline → time ≤ deadline

/-- There are pairs, no pair ever ends by itself, and the token never fires. -/
structure Endless (busy : Port → Option SystemError) (create : String → Int → σ → Reply σ Forwarder)
    (r : Run σ) (pairs : List ForwardRequest) : Prop where
  nonempty : pairs ≠ []
  serving : ServingUpTo busy create r pairs pairs.length
  lasting : ∀ j other, pairs[j]? = some other → (forwarderAt busy create r pairs j other).script = none
  undated : r.deadline = none

/-- **How a group ends**, by the first of its tasks to end. -/
inductive Verdict (busy : Port → Option SystemError) (create : String → Int → σ → Reply σ Forwarder)
    (r : Run σ) (pairs : List ForwardRequest) : Outcome Unit → Prop
  /-- There is nothing to forward. -/
  | nothing (hp : pairs = []) : Verdict busy create r pairs (.done ())
  /-- The local port of the first pair to end cannot be bound. -/
  | unbound {i : Nat} {pair : ForwardRequest} {e : SystemError}
      (h : EndsFirst busy create r pairs i pair (.unbound e)) :
      Verdict busy create r pairs (.failed (.bind pair.localPort e))
  /-- The forwarder of the first pair to end stops in its first turn. -/
  | stoppedAtOnce {i : Nat} {pair : ForwardRequest} {cause : Cause}
      (h : EndsFirst busy create r pairs i pair (.stopped cause)) :
      Verdict busy create r pairs (.failed (.forward pair.remote cause))
  /-- The token has fired when the forwarder of the first pair to end is started. -/
  | cancelledAtOnce {i : Nat} {pair : ForwardRequest} {cause : Cause}
      (h : EndsFirst busy create r pairs i pair (.cancelled cause)) :
      Verdict busy create r pairs (.failed (.forward pair.remote cause))
  /-- The task of the first pair to end dies in its first turn. -/
  | diedAtOnce {i : Nat} {pair : ForwardRequest} (h : EndsFirst busy create r pairs i pair .panicked) :
      Verdict busy create r pairs (.failed .taskDied)
  /-- The forwarder of the first pair to end stops later. -/
  | stopped {i time : Nat} {pair : ForwardRequest} {cause : Cause}
      (h : StopsFirst busy create r pairs i pair time (.stops cause)) :
      Verdict busy create r pairs (.failed (.forward pair.remote cause))
  /-- The task of the first pair to end dies later. -/
  | died {i time : Nat} {pair : ForwardRequest} (h : StopsFirst busy create r pairs i pair time .panics) :
      Verdict busy create r pairs (.failed .taskDied)
  /-- No pair ends in its first turn, and the token fires before any of them stops. -/
  | token {pair : ForwardRequest} {deadline : Nat} (hp : pairs[0]? = some pair)
      (hs : ServingUpTo busy create r pairs pairs.length) (hd : r.deadline = some deadline)
      (hm : ∀ j other time how, pairs[j]? = some other →
        (forwarderAt busy create r pairs j other).script = some (time, how) → deadline < time) :
      Verdict busy create r pairs
        (.failed (.forward pair.remote (forwarderAt busy create r pairs 0 pair).onCancel))
  /-- Nothing ever happens. -/
  | never (h : Endless busy create r pairs) : Verdict busy create r pairs .waiting

/-! ## Serving -/

/-- The task of the pair at `j`, once it serves. -/
def taskAt (busy : Port → Option SystemError) (create : String → Int → σ → Reply σ Forwarder) (r : Run σ)
    (pairs : List ForwardRequest) (j : Nat) : Option Task :=
  pairs[j]?.map fun pair => ⟨j, pair, forwarderAt busy create r pairs j pair⟩

/-- **Where all pairs so far serve**, each has its task, nothing has ended, and the token has not fired. -/
theorem before_of_serving (hi : i ≤ pairs.length) (hs : ServingUpTo busy create r pairs i) :
    (before busy create r pairs i).ended = [] ∧
    (before busy create r pairs i).running = (List.range i).filterMap (taskAt busy create r pairs) ∧
    (0 < i → (before busy create r pairs i).run.fired = false) := by
  induction i with
  | zero => exact ⟨rfl, rfl, fun h => absurd h (Nat.lt_irrefl 0)⟩
  | succ i ih =>
    obtain ⟨hended, hrunning, -⟩ := ih (by omega) (fun j hj => hs j (by omega))
    have hp : pairs[i]? = some pairs[i] := List.getElem?_eq_getElem (by omega)
    have hserves := hs i (Nat.lt_succ_self i) _ hp
    obtain ⟨he, hr, hrun⟩ := hserves.start i
    rw [before_succ hp]
    refine ⟨by rw [he, hended], ?_, ?_⟩
    · rw [hr, hrunning, List.range_succ, List.filterMap_append]
      congr 1
      have htask : taskAt busy create r pairs i =
          some ⟨i, pairs[i], forwarderAt busy create r pairs i pairs[i]⟩ := by
        unfold taskAt
        rw [hp]
        rfl
      rw [List.filterMap_cons_some htask]
      rfl
    · intro _
      rw [hrun]
      exact hserves.unfired

theorem mem_running_iff {t : Task} :
    t ∈ (List.range pairs.length).filterMap (taskAt busy create r pairs) ↔
      pairs[t.index]? = some t.pair ∧ t.forwarder = forwarderAt busy create r pairs t.index t.pair := by
  rw [List.mem_filterMap]
  constructor
  · rintro ⟨j, -, hj⟩
    obtain ⟨pair, hp, rfl⟩ := Option.map_eq_some_iff.mp hj
    exact ⟨hp, rfl⟩
  · rintro ⟨hp, hf⟩
    refine ⟨t.index, List.mem_range.mpr (List.getElem?_eq_some_iff.mp hp).1, ?_⟩
    unfold taskAt
    rw [hp, Option.map_some, ← hf]

/-- Running tasks stand in the order of the pairs. -/
theorem running_pairwise (n : Nat) :
    ((List.range n).filterMap (taskAt busy create r pairs)).Pairwise (·.index < ·.index) := by
  rw [List.pairwise_filterMap]
  refine List.pairwise_lt_range.imp ?_
  intro a b hab t ht u hu
  obtain ⟨p, -, rfl⟩ := Option.map_eq_some_iff.mp ht
  obtain ⟨q, -, rfl⟩ := Option.map_eq_some_iff.mp hu
  exact hab

variable (busy create r) in
/-- Among the first `i` pairs, either all serve, or one is the first to end in its first turn. -/
theorem serving_or_ends (hi : i ≤ pairs.length) :
    ServingUpTo busy create r pairs i ∨
      ∃ k pair ending, pairs[k]? = some pair ∧ ServingUpTo busy create r pairs k ∧
        (before busy create r pairs k).EndsAtOnce busy create pair ending := by
  induction i with
  | zero => exact Or.inl (fun j hj => absurd hj (Nat.not_lt_zero j))
  | succ i ih =>
    rcases ih (by omega) with hs | hk
    · have hp : pairs[i]? = some pairs[i] := List.getElem?_eq_getElem (by omega)
      rcases ends_or_serves busy create (before busy create r pairs i) pairs[i] with ⟨ending, he⟩ | hserves
      · exact Or.inr ⟨i, _, ending, hp, hs, he⟩
      · left
        intro j hj pair hpair
        rcases Nat.lt_succ_iff_lt_or_eq.mp hj with hj | rfl
        · exact hs j hj pair hpair
        · rw [hp] at hpair
          exact Option.some.inj hpair ▸ hserves
    · exact Or.inr hk

/-- Ended tasks stay ended, in their order. -/
theorem ended_prefix_succ (i : Nat) :
    (before busy create r pairs i).ended <+: (before busy create r pairs (i + 1)).ended := by
  cases hp : pairs[i]? with
  | some pair =>
    rw [before_succ hp]
    rcases ends_or_serves busy create (before busy create r pairs i) pair with ⟨ending, he⟩ | hserves
    · rw [(he.start i).1]
      exact List.prefix_append _ _
    · exact ⟨[], by rw [List.append_nil, (hserves.start i).1]⟩
  | none =>
    have hi : pairs.length ≤ i := List.getElem?_eq_none_iff.mp hp
    unfold before
    refine ⟨[], ?_⟩
    rw [List.append_nil, List.take_of_length_le hi, List.take_of_length_le (by omega)]

variable (busy create r pairs) in
theorem ended_prefix {k : Nat} (h : i ≤ k) :
    (before busy create r pairs i).ended <+: (before busy create r pairs k).ended := by
  induction h with
  | refl => exact List.prefix_rfl
  | step _ ih => exact ih.trans (ended_prefix_succ _)

/-! ## Stops -/

/-- Where tasks stand in the order of their indices, the first to stop is the earliest, and of several
    earliest the one with the lowest index. -/
theorem earliest_iff {tasks : List Task} (ho : tasks.Pairwise (·.index < ·.index)) {t : Task} {time : Nat}
    {how : Stop} :
    Earliest tasks t time how ↔
      t ∈ tasks ∧ t.forwarder.script = some (time, how) ∧
        ∀ u ∈ tasks, ∀ time' how', u.forwarder.script = some (time', how') →
          time ≤ time' ∧ (u.index < t.index → time < time') := by
  constructor
  · rintro ⟨front, back, rfl, hs, hf, hb⟩
    refine ⟨by simp, hs, ?_⟩
    intro u hu time' how' hu'
    obtain ⟨-, hback, -⟩ := List.pairwise_append.mp ho
    rcases List.mem_append.mp hu with hu | hu
    · have hlt := hf u hu time' how' hu'
      exact ⟨Nat.le_of_lt hlt, fun _ => hlt⟩
    · rcases List.mem_cons.mp hu with rfl | hu
      · rw [hs] at hu'
        obtain ⟨rfl, -⟩ := Prod.mk.inj (Option.some.inj hu')
        exact ⟨Nat.le_refl _, fun h => absurd h (Nat.lt_irrefl _)⟩
      · have hlt := (List.pairwise_cons.mp hback).1 u hu
        exact ⟨hb u hu time' how' hu', fun h => absurd h (by omega)⟩
  · rintro ⟨ht, hs, hm⟩
    obtain ⟨front, back, rfl⟩ := List.append_of_mem ht
    obtain ⟨-, -, hfront⟩ := List.pairwise_append.mp ho
    refine ⟨front, back, rfl, hs, ?_, ?_⟩
    · intro u hu time' how' hu'
      exact (hm u (by simp [hu]) time' how' hu').2 (hfront u hu t List.mem_cons_self)
    · intro u hu time' how' hu'
      exact (hm u (by simp [hu]) time' how' hu').1

/-! ## The result -/

/-- What the group is after all first turns, where none of them ends its task. -/
theorem before_of_all_serving (hp : pairs ≠ []) (hs : ServingUpTo busy create r pairs pairs.length) :
    (before busy create r pairs pairs.length).ended = [] ∧
    (before busy create r pairs pairs.length).running =
      (List.range pairs.length).filterMap (taskAt busy create r pairs) ∧
    (before busy create r pairs pairs.length).running ≠ [] ∧
    (before busy create r pairs pairs.length).run.fired = false := by
  have hlen : 0 < pairs.length := List.length_pos_iff.mpr hp
  obtain ⟨hended, hrunning, hfired⟩ := before_of_serving (Nat.le_refl _) hs
  refine ⟨hended, hrunning, ?_, hfired hlen⟩
  have hmem : (⟨0, pairs[0], forwarderAt busy create r pairs 0 pairs[0]⟩ : Task) ∈
      (before busy create r pairs pairs.length).running := by
    rw [hrunning]
    exact mem_running_iff.mpr ⟨List.getElem?_eq_getElem hlen, rfl⟩
  exact List.ne_nil_of_mem hmem

variable (busy create r) in
/-- The first task of a group whose pairs all serve is that of the first pair. -/
theorem running_eq_cons {pair : ForwardRequest} (hp : pairs[0]? = some pair) :
    ∃ tasks, (List.range pairs.length).filterMap (taskAt busy create r pairs) =
      ⟨0, pair, forwarderAt busy create r pairs 0 pair⟩ :: tasks := by
  obtain ⟨hlt, -⟩ := List.getElem?_eq_some_iff.mp hp
  obtain ⟨n, hn⟩ := Nat.exists_eq_succ_of_ne_zero (Nat.ne_of_gt hlt)
  rw [hn, List.range_succ_eq_map]
  refine ⟨_, List.filterMap_cons_some ?_⟩
  unfold taskAt
  rw [hp]
  rfl

/-- The first end in the first turns is the result. -/
theorem EndsFirst.outcome_eq {pair : ForwardRequest} {ending : TaskEnd}
    (h : EndsFirst busy create r pairs i pair ending) :
    (forwardTogether busy create pairs r).1 = .failed (Ended.error ⟨i, pair, ending⟩) := by
  have hi : i < pairs.length := (List.getElem?_eq_some_iff.mp h.place).1
  have hfirst : (before busy create r pairs (i + 1)).ended = [⟨i, pair, ending⟩] := by
    rw [before_succ h.place, (h.ends.start i).1, (before_of_serving (Nat.le_of_lt hi) h.serving).1]
    rfl
  -- all other ends, those of later first turns among them, come behind this one
  obtain ⟨rest, hrest⟩ := ended_prefix busy create r pairs hi
  rw [hfirst, List.singleton_append] at hrest
  rw [forwardTogether_of_settle (settle_of_ended (Or.inl (by simp [← hrest])))]
  exact outcome_of_ended (by rw [unwind_ended, ← hrest, List.cons_append])

/-- The first stop is the result where no pair has ended in its first turn. -/
theorem StopsFirst.outcome_eq {pair : ForwardRequest} {time : Nat} {how : Stop}
    (h : StopsFirst busy create r pairs i pair time how) :
    (forwardTogether busy create pairs r).1 = .failed (Ended.error ⟨i, pair, endOfStop how⟩) := by
  have hne : pairs ≠ [] := by
    rintro rfl
    exact absurd h.place (by simp)
  obtain ⟨hended, hrunning, -, hfired⟩ := before_of_all_serving hne h.serving
  have hfirst : Earliest (before busy create r pairs pairs.length).running
      ⟨i, pair, forwarderAt busy create r pairs i pair⟩ time how := by
    rw [hrunning, earliest_iff (running_pairwise _)]
    refine ⟨mem_running_iff.mpr ⟨h.place, rfl⟩, h.stops, ?_⟩
    intro u hu time' how' hu'
    obtain ⟨hup, huf⟩ := mem_running_iff.mp hu
    rw [huf] at hu'
    exact h.first u.index u.pair time' how' hup hu'
  rw [forwardTogether_of_settle (settle_of_stop hended hfired hfirst (by rw [before_deadline]; exact h.ahead))]
  have hends : ((before busy create r pairs pairs.length).stop
      ⟨i, pair, forwarderAt busy create r pairs i pair⟩ how).ended = [⟨i, pair, endOfStop how⟩] := by
    show (before busy create r pairs pairs.length).ended ++ [_] = _
    rw [hended, List.nil_append]
  exact outcome_of_ended (by rw [unwind_ended, hends, List.singleton_append])

/-- **A verdict holds of the outcome only.** -/
theorem Verdict.outcome_eq {outcome : Outcome Unit} (h : Verdict busy create r pairs outcome) :
    (forwardTogether busy create pairs r).1 = outcome := by
  cases h with
  | nothing hp =>
    subst hp
    rfl
  | unbound h => exact h.outcome_eq
  | stoppedAtOnce h => exact h.outcome_eq
  | cancelledAtOnce h => exact h.outcome_eq
  | diedAtOnce h => exact h.outcome_eq
  | stopped h => exact h.outcome_eq
  | died h => exact h.outcome_eq
  | @token pair deadline hp hs hd hm =>
    have hne : pairs ≠ [] := by
      rintro rfl
      exact absurd hp (by simp)
    obtain ⟨hended, hrunning, hsome, hfired⟩ := before_of_all_serving hne hs
    have hlate : ∀ t ∈ (before busy create r pairs pairs.length).running, ∀ time how,
        t.forwarder.script = some (time, how) → deadline < time := by
      intro t ht time how hscript
      rw [hrunning] at ht
      obtain ⟨htp, htf⟩ := mem_running_iff.mp ht
      rw [htf] at hscript
      exact hm t.index t.pair time how htp hscript
    rw [forwardTogether_of_settle
      (settle_of_token hended hsome hfired (by rw [before_deadline]; exact hd) hlate)]
    -- cancelled tasks end in the order of the pairs, so the first pair's end is the first
    obtain ⟨tasks, htasks⟩ := running_eq_cons busy create r hp
    have hends : (before busy create r pairs pairs.length).fire.unwind.ended =
        cancelled ⟨0, pair, forwarderAt busy create r pairs 0 pair⟩ :: tasks.map cancelled := by
      rw [unwind_ended]
      show (before busy create r pairs pairs.length).ended ++
        (before busy create r pairs pairs.length).running.map cancelled = _
      rw [hended, hrunning, htasks, List.nil_append, List.map_cons]
    exact outcome_of_ended hends
  | never h =>
    obtain ⟨hended, hrunning, hsome, hfired⟩ := before_of_all_serving h.nonempty h.serving
    have hquiet : ∀ t ∈ (before busy create r pairs pairs.length).running, t.forwarder.script = none := by
      intro t ht
      rw [hrunning] at ht
      obtain ⟨htp, htf⟩ := mem_running_iff.mp ht
      rw [htf]
      exact h.lasting t.index t.pair htp
    rw [forwardTogether_of_wait
      (settle_of_nothing hended hsome hfired (by rw [before_deadline]; exact h.undated) hquiet)]

/-- A pair that is the first to end in its first turn gives a verdict. -/
theorem EndsFirst.exists_verdict {pair : ForwardRequest} {ending : TaskEnd}
    (h : EndsFirst busy create r pairs i pair ending) : ∃ outcome, Verdict busy create r pairs outcome := by
  cases ending with
  | unbound e => exact ⟨_, .unbound h⟩
  | stopped cause => exact ⟨_, .stoppedAtOnce h⟩
  | cancelled cause => exact ⟨_, .cancelledAtOnce h⟩
  | panicked => exact ⟨_, .diedAtOnce h⟩

/-- A pair that is the first to stop gives a verdict. -/
theorem StopsFirst.exists_verdict {pair : ForwardRequest} {time : Nat} {how : Stop}
    (h : StopsFirst busy create r pairs i pair time how) :
    ∃ outcome, Verdict busy create r pairs outcome := by
  cases how with
  | stops cause => exact ⟨_, .stopped h⟩
  | panics => exact ⟨_, .died h⟩

/-- **Some verdict always holds.** -/
theorem exists_verdict (busy : Port → Option SystemError) (create : String → Int → σ → Reply σ Forwarder)
    (r : Run σ) (pairs : List ForwardRequest) : ∃ outcome, Verdict busy create r pairs outcome := by
  by_cases hp : pairs = []
  · exact ⟨_, .nothing hp⟩
  rcases serving_or_ends busy create r (Nat.le_refl pairs.length) with
    hs | ⟨i, pair, ending, hpair, hs, he⟩
  · have hlen : 0 < pairs.length := List.length_pos_iff.mpr hp
    have hzero : pairs[0]? = some pairs[0] := List.getElem?_eq_getElem hlen
    have hmem : ∀ {j other}, pairs[j]? = some other →
        (⟨j, other, forwarderAt busy create r pairs j other⟩ : Task) ∈
          (List.range pairs.length).filterMap (taskAt busy create r pairs) :=
      fun h => mem_running_iff.mpr ⟨h, rfl⟩
    -- where all serve, the first stop and the deadline of the token are compared
    cases hfirst : firstStop? ((List.range pairs.length).filterMap (taskAt busy create r pairs)) with
    | none =>
      have hquiet := firstStop?_eq_none_iff.mp hfirst
      cases hd : r.deadline with
      | none => exact ⟨_, .never ⟨hp, hs, fun j other h => hquiet _ (hmem h), hd⟩⟩
      | some deadline =>
        refine ⟨_, .token hzero hs hd ?_⟩
        intro j other time how h hscript
        rw [show (forwarderAt busy create r pairs j other).script = none from hquiet _ (hmem h)] at hscript
        exact absurd hscript (by simp)
    | some first =>
      obtain ⟨t, time, how⟩ := first
      obtain ⟨ht, hscript, hmin⟩ :=
        (earliest_iff (running_pairwise _)).mp (firstStop?_eq_some_iff.mp hfirst)
      obtain ⟨htp, htf⟩ := mem_running_iff.mp ht
      by_cases hd : ∀ deadline, r.deadline = some deadline → time ≤ deadline
      · have hstops : StopsFirst busy create r pairs t.index t.pair time how :=
          ⟨htp, hs, by rw [← htf, hscript],
            fun j other time' how' h hother => hmin _ (hmem h) time' how' hother, hd⟩
        exact hstops.exists_verdict
      · simp only [Classical.not_forall, Nat.not_le] at hd
        obtain ⟨deadline, hd, hlt⟩ := hd
        refine ⟨_, .token hzero hs hd ?_⟩
        intro j other time' how' h hother
        exact Nat.lt_of_lt_of_le hlt (hmin _ (hmem h) time' how' hother).1
  · exact EndsFirst.exists_verdict ⟨hpair, hs, he⟩

/-- A group comes to the outcome of which a verdict holds. -/
theorem outcome_eq_iff_verdict (busy : Port → Option SystemError)
    (create : String → Int → σ → Reply σ Forwarder) (pairs : List ForwardRequest) (r : Run σ)
    (outcome : Outcome Unit) :
    (forwardTogether busy create pairs r).1 = outcome ↔ Verdict busy create r pairs outcome := by
  constructor
  · -- some verdict holds, and it can only be that of the outcome
    rintro rfl
    obtain ⟨found, hv⟩ := exists_verdict busy create r pairs
    rw [hv.outcome_eq]
    exact hv
  · exact Verdict.outcome_eq

/-- **A group waits for ever** just if nothing ever happens. -/
theorem waiting_iff_endless (busy : Port → Option SystemError)
    (create : String → Int → σ → Reply σ Forwarder) (pairs : List ForwardRequest) (r : Run σ) :
    (forwardTogether busy create pairs r).1 = .waiting ↔ Endless busy create r pairs := by
  rw [outcome_eq_iff_verdict]
  constructor
  · intro h
    cases h with
    | never h => exact h
  · exact .never

/-- **The first end of a group decides.** A group succeeds exactly where there is nothing to forward, and
    in every case comes to the one outcome of which a verdict holds. -/
theorem forwardTogether_first_end (busy : Port → Option SystemError)
    (create : String → Int → σ → Reply σ Forwarder) (pairs : List ForwardRequest) (r : Run σ) :
    ((forwardTogether busy create pairs r).1 = .done () ↔ pairs = []) ∧
    ∀ outcome, (forwardTogether busy create pairs r).1 = outcome ↔ Verdict busy create r pairs outcome := by
  have hiff := outcome_eq_iff_verdict busy create pairs r
  refine ⟨?_, hiff⟩
  constructor
  · intro h
    cases (hiff _).mp h with
    | nothing hp => exact hp
  · intro hp
    exact Verdict.outcome_eq (.nothing hp)

end Group

end SharedPorts
