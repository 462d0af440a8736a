import Mathlib.Data.List.Sort
import SharedPorts.Proofs.Forward.FirstEnd

/-!
# `SharedPorts.Proofs.Forward.Unwinding` — what a group holds, and how it lets go

A group changes by small events: a pair takes its first turn, the token fires, a task stops by itself, a
task sees that the group is cancelled, an error is dropped. `Group.Reachable` lists the states that such
events lead to, in whatever order they come after the first turns. In each of them `Group.Sound` holds,
which ties the ports held to the running tasks, and the running and ended tasks to the pairs. The group
itself goes through reachable states only, and ends in one where nothing runs.

## Contents
- **Events.** `Group.Event` and `Group.Reachable`.
- **Tasks and ends.** `Group.TaskOf` and `Group.EndOf`, what a task and its end owe to the pairs.
- **The invariant.** `Group.Sound`, kept by every event.
- **The group.** `settle_reachable`, and the main statement `forwardTogether_unwinds`.
-/

namespace SharedPorts

namespace Group

variable {σ : Type} {busy : Port → Option SystemError} {create : String → Int → σ → Reply σ Forwarder}
variable {r : Run σ} {pairs : List ForwardRequest} {g g' : Group σ} {t : Task}

/-! ## Events -/

/-- How many pairs have taken their first turns. -/
def started (g : Group σ) : Nat := g.running.length + g.ended.length

/-- The tasks of a group are cancelled: the token has fired, or one of them has ended. -/
def ScopeCancelled (g : Group σ) : Prop := g.run.fired = true ∨ g.ended ≠ []

/-- The group once a running task has ended. -/
def retire (g : Group σ) (t : Task) (ending : TaskEnd) (run : Run σ) : Group σ :=
  { run
    running := g.running.filter (·.index != t.index)
    ended := g.ended ++ [⟨t.index, t.pair, ending⟩] }

/-- A task ends because it was cancelled. -/
def cancel (g : Group σ) (t : Task) : Group σ :=
  g.retire t (.cancelled t.forwarder.onCancel) (g.run.write (t.forwarder.farewell.map .note))

/-- **One event.** No task learns of another's end before all have had their first turns. -/
inductive Event (busy : Port → Option SystemError) (create : String → Int → σ → Reply σ Forwarder)
    (pairs : List ForwardRequest) : Group σ → Group σ → Prop
  /-- The next pair takes its first turn. -/
  | turn {g : Group σ} {pair : ForwardRequest} (hp : pairs[g.started]? = some pair) :
      Event busy create pairs g (g.start busy create g.started pair)
  /-- The caller's token fires. -/
  | fire {g : Group σ} (hs : g.started = pairs.length) : Event busy create pairs g g.fire
  /-- A task stops by itself. -/
  | stop {g : Group σ} {t : Task} {time : Nat} {how : Stop} (hs : g.started = pairs.length)
      (ht : t ∈ g.running) (hw : t.forwarder.script = some (time, how)) :
      Event busy create pairs g (g.stop t how)
  /-- A task sees that it is cancelled. -/
  | cancel {g : Group σ} {t : Task} (hs : g.started = pairs.length) (hc : g.ScopeCancelled)
      (ht : t ∈ g.running) : Event busy create pairs g (g.cancel t)
  /-- Errors of ended tasks are dropped. -/
  | discard {g : Group σ} {others : List Ended} (hs : g.started = pairs.length) :
      Event busy create pairs g (g.discard others)

/-- The states that a group of some pairs can come to, from a run in which none of them has been started. -/
inductive Reachable (busy : Port → Option SystemError) (create : String → Int → σ → Reply σ Forwarder)
    (r : Run σ) (pairs : List ForwardRequest) : Group σ → Prop
  | init : Reachable busy create r pairs { run := r }
  | step {g g' : Group σ} (hr : Reachable busy create r pairs g) (he : Event busy create pairs g g') :
      Reachable busy create r pairs g'

/-! ## Tasks and ends -/

/-- A running task serves the pair of its index, by the forwarder that was created for it. -/
structure TaskOf (busy : Port → Option SystemError) (create : String → Int → σ → Reply σ Forwarder)
    (r : Run σ) (pairs : List ForwardRequest) (t : Task) : Prop where
  pair : pairs[t.index]? = some t.pair
  serves : (before busy create r pairs t.index).Serves busy create t.pair
  forwarder : t.forwarder = forwarderAt busy create r pairs t.index t.pair

/-- A forwarder ends by itself: before it looks at the token, or as its script says. -/
inductive OwnEnd (f : Forwarder) : TaskEnd → Prop
  | refuses {how : Stop} {ending : TaskEnd} (hr : f.refusal = some how) (he : how.Ends ending) :
      OwnEnd f ending
  | stops {time : Nat} {how : Stop} {ending : TaskEnd} (hs : f.script = some (time, how))
      (he : how.Ends ending) : OwnEnd f ending

/-- **The end of a task**: its port could not be bound, or the forwarder that was created for it has ended
    by itself or because it was cancelled. -/
inductive EndOf (busy : Port → Option SystemError) (create : String → Int → σ → Reply σ Forwarder)
    (r : Run σ) (pairs : List ForwardRequest) : Ended → Prop
  | unbound {i : Nat} {pair : ForwardRequest} {e : SystemError} (hp : pairs[i]? = some pair)
      (hb : (before busy create r pairs i).bindFault? busy pair.localPort = some e) :
      EndOf busy create r pairs ⟨i, pair, .unbound e⟩
  | own {i : Nat} {pair : ForwardRequest} {ending : TaskEnd} (hp : pairs[i]? = some pair)
      (hb : (before busy create r pairs i).bindFault? busy pair.localPort = none)
      (ho : OwnEnd (forwarderAt busy create r pairs i pair) ending) :
      EndOf busy create r pairs ⟨i, pair, ending⟩
  | cancelled {i : Nat} {pair : ForwardRequest} (hp : pairs[i]? = some pair)
      (hb : (before busy create r pairs i).bindFault? busy pair.localPort = none) :
      EndOf busy create r pairs ⟨i, pair, .cancelled (forwarderAt busy create r pairs i pair).onCancel⟩

theorem EndsAtOnce.endOf {i : Nat} {pair : ForwardRequest} {ending : TaskEnd} (hp : pairs[i]? = some pair)
    (h : (before busy create r pairs i).EndsAtOnce busy create pair ending) :
    EndOf busy create r pairs ⟨i, pair, ending⟩ := by
  cases h with
  | unbound hb => exact .unbound hp hb
  | refuses hb hr he => exact .own hp hb (.refuses hr he)
  | cancelled hb _ _ => exact .cancelled hp hb
  | stops hb _ _ hs he => exact .own hp hb (.stops hs he)

/-! ## The invariant -/

/-- **The invariant of a group.** -/
structure Sound (busy : Port → Option SystemError) (create : String → Int → σ → Reply σ Forwarder)
    (r : Run σ) (pairs : List ForwardRequest) (g : Group σ) : Prop where
  /-- The first turns are taken in the order of the pairs, and before anything else. -/
  turns : g.started < pairs.length → g = before busy create r pairs g.started
  within : g.started ≤ pairs.length
  /-- Every pair that was started has one task, which runs or has ended. -/
  indices : (g.running.map (·.index) ++ g.ended.map (·.index)).Perm (List.range g.started)
  ordered : g.running.Pairwise (·.index < ·.index)
  exclusive : g.running.Pairwise fun t u => t.pair.localPort ≠ 0 → t.pair.localPort ≠ u.pair.localPort
  free : ∀ t ∈ g.running, busy t.pair.localPort = none
  tasks : ∀ t ∈ g.running, TaskOf busy create r pairs t
  ends : ∀ e ∈ g.ended, EndOf busy create r pairs e
  /-- Only a cancelled group has tasks that end because they were cancelled. -/
  causes : ∀ k e cause, g.ended[k]? = some e → e.ending = .cancelled cause → g.run.fired = true ∨ 0 < k

theorem sound_init : Sound busy create r pairs { run := r } where
  turns := fun _ => rfl
  within := Nat.zero_le _
  indices := List.Perm.refl _
  ordered := List.Pairwise.nil
  exclusive := List.Pairwise.nil
  free := fun t ht => absurd ht List.not_mem_nil
  tasks := fun t ht => absurd ht List.not_mem_nil
  ends := fun e he => absurd he List.not_mem_nil
  causes := fun k e _ he => absurd he (by simp)

/-- Running tasks have lower indices than pairs that are still to be started. -/
theorem Sound.index_lt (h : Sound busy create r pairs g) (ht : t ∈ g.running) : t.index < g.started :=
  List.mem_range.mp (h.indices.subset (List.mem_append_left _ (List.mem_map_of_mem ht)))

/-- **Binding fails** exactly where the port cannot be bound on the machine, or is not 0 and held by an
    earlier pair. -/
theorem bindFault?_isSome_iff {port : Port} :
    (g.bindFault? busy port).isSome = true ↔
      (busy port).isSome = true ∨ (port ≠ 0 ∧ ∃ t ∈ g.running, t.pair.localPort = port) := by
  unfold bindFault?
  cases busy port with
  | some e => simp
  | none =>
    by_cases hc : port ≠ 0 ∧ port ∈ g.held
    · have hheld : ∃ t ∈ g.running, t.pair.localPort = port := List.mem_map.mp hc.2
      simp only [if_pos hc, Option.isSome_some, Option.isSome_none, true_iff]
      exact Or.inr ⟨hc.1, hheld⟩
    · simp only [if_neg hc, Option.isSome_none]
      constructor
      · intro h
        exact absurd h (by simp)
      · rintro (h | ⟨hne, t, ht, hport⟩)
        · exact absurd h (by simp)
        · exact absurd ⟨hne, List.mem_map.mpr ⟨t, ht, hport⟩⟩ hc

/-- A token that has fired stays fired in a first turn. -/
theorem start_fired {pair : ForwardRequest} (i : Nat) (hf : g.run.fired = true) :
    (g.start busy create i pair).run.fired = true := by
  cases hb : g.bindFault? busy pair.localPort with
  | some e => rw [start_unbound hb, hf]
  | none => exact (start_leads_of_bound hb i).fired hf

/-- A task that is cancelled in its first turn is so because the token has fired. -/
theorem EndsAtOnce.fired {pair : ForwardRequest} {ending : TaskEnd} {cause : Cause}
    (h : EndsAtOnce busy create g pair ending) (hc : ending = .cancelled cause) (i : Nat) :
    (g.start busy create i pair).run.fired = true := by
  cases h with
  | unbound _ => exact absurd hc (by simp)
  | refuses _ _ he => exact absurd hc (he.own.2 cause)
  | cancelled hb _ hf =>
    obtain ⟨notes, hrun⟩ := start_run_of_bound create hb i
    rw [hrun]
    exact hf
  | stops _ _ _ _ he => exact absurd hc (he.own.2 cause)

/-- Only a port that cannot be bound ends a task as unbound. -/
theorem EndsAtOnce.bindFault_of_unbound {pair : ForwardRequest} {ending : TaskEnd} {e : SystemError}
    (h : EndsAtOnce busy create g pair ending) (hu : ending = .unbound e) :
    (g.bindFault? busy pair.localPort).isSome = true := by
  cases h with
  | unbound hb => rw [hb, Option.isSome_some]
  | refuses _ _ he => exact absurd hu (he.own.1 e)
  | cancelled _ _ _ => exact absurd hu (by simp)
  | stops _ _ _ _ he => exact absurd hu (he.own.1 e)

/-- A first turn starts one pair, whichever way it goes. -/
theorem start_started (i : Nat) (pair : ForwardRequest) :
    (g.start busy create i pair).started = g.started + 1 := by
  unfold started
  rcases ends_or_serves busy create g pair with ⟨ending, hends⟩ | hserves
  · obtain ⟨he, hr⟩ := hends.start i
    rw [he, hr, List.length_append, List.length_singleton]
    rfl
  · obtain ⟨he, hr, -⟩ := hserves.start i
    rw [he, hr, List.length_append, List.length_singleton]
    omega

/-- A first turn that ends its task keeps the invariant. -/
theorem Sound.turn_ends (h : Sound busy create r pairs g) {pair : ForwardRequest} {ending : TaskEnd}
    (hp : pairs[g.started]? = some pair) (hends : EndsAtOnce busy create g pair ending) :
    Sound busy create r pairs (g.start busy create g.started pair) := by
  have hlt : g.started < pairs.length := (List.getElem?_eq_some_iff.mp hp).1
  have hbefore := h.turns hlt
  obtain ⟨he, hr⟩ := hends.start g.started
  have hcount : (g.start busy create g.started pair).started = g.started + 1 := start_started _ _
  refine ⟨?_, by omega, ?_, by rw [hr]; exact h.ordered, by rw [hr]; exact h.exclusive,
    by rw [hr]; exact h.free, by rw [hr]; exact h.tasks, ?_, ?_⟩
  · intro _
    rw [hcount, before_succ hp, ← hbefore]
  · rw [hcount, hr, he, List.map_append, ← List.append_assoc, List.range_succ]
    exact h.indices.append (List.Perm.refl _)
  · intro e hmem
    rw [he] at hmem
    rcases List.mem_append.mp hmem with hmem | hmem
    · exact h.ends e hmem
    · rw [List.mem_singleton.mp hmem]
      rw [hbefore] at hends
      exact hends.endOf hp
  · intro k e cause hk hcause
    rw [he] at hk
    rcases Nat.lt_or_ge k g.ended.length with hlt | hge
    · rw [List.getElem?_append_left hlt] at hk
      exact (h.causes k e cause hk hcause).imp (start_fired _) id
    · rw [List.getElem?_append_right hge] at hk
      have hmem := List.mem_singleton.mp (List.mem_of_getElem? hk)
      subst hmem
      exact Or.inl (hends.fired hcause _)

/-- A first turn that leaves its task serving keeps the invariant: the port of the task is free, and no
    running task holds it. -/
theorem Sound.turn_serves (h : Sound busy create r pairs g) {pair : ForwardRequest}
    (hp : pairs[g.started]? = some pair) (hserves : Serves busy create g pair) :
    Sound busy create r pairs (g.start busy create g.started pair) := by
  have hlt : g.started < pairs.length := (List.getElem?_eq_some_iff.mp hp).1
  have hbefore := h.turns hlt
  obtain ⟨he, hr, -⟩ := hserves.start g.started
  have hcount : (g.start busy create g.started pair).started = g.started + 1 := start_started _ _
  -- what could be bound is neither busy nor held, which keeps the ports apart
  have hbound : ¬ ((busy pair.localPort).isSome = true ∨
      (pair.localPort ≠ 0 ∧ ∃ t ∈ g.running, t.pair.localPort = pair.localPort)) := by
    rw [← bindFault?_isSome_iff, hserves.bound]
    simp
  rw [not_or] at hbound
  have hnew : TaskOf busy create r pairs ⟨g.started, pair, (g.created create pair).value⟩ := by
    rw [hbefore] at hserves
    refine ⟨hp, hserves, ?_⟩
    show _ = ((before busy create r pairs g.started).created create pair).value
    rw [← hbefore]
  refine ⟨?_, by omega, ?_, ?_, ?_, ?_, ?_, by rw [he]; exact h.ends, ?_⟩
  · intro _
    rw [hcount, before_succ hp, ← hbefore]
  · rw [hcount, hr, he, List.map_append, List.range_succ]
    have hswap : (g.running.map (·.index) ++ [g.started] ++ g.ended.map (·.index)).Perm
        (g.running.map (·.index) ++ g.ended.map (·.index) ++ [g.started]) := by
      rw [List.append_assoc, List.append_assoc]
      exact (List.perm_append_comm).append_left _
    exact hswap.trans (h.indices.append (List.Perm.refl _))
  · rw [hr]
    refine List.pairwise_append.mpr ⟨h.ordered, List.pairwise_singleton _ _, ?_⟩
    intro t ht u hu
    rw [List.mem_singleton.mp hu]
    exact h.index_lt ht
  · rw [hr]
    refine List.pairwise_append.mpr ⟨h.exclusive, List.pairwise_singleton _ _, ?_⟩
    intro t ht u hu hne heq
    rw [List.mem_singleton.mp hu] at heq
    exact hbound.2 ⟨heq ▸ hne, t, ht, heq⟩
  · intro t ht
    rw [hr] at ht
    rcases List.mem_append.mp ht with ht | ht
    · exact h.free t ht
    · rw [List.mem_singleton.mp ht]
      simpa using hbound.1
  · intro t ht
    rw [hr] at ht
    rcases List.mem_append.mp ht with ht | ht
    · exact h.tasks t ht
    · rw [List.mem_singleton.mp ht]
      exact hnew
  · intro k e cause hk hcause
    rw [he] at hk
    exact (h.causes k e cause hk hcause).imp (start_fired _) id

/-- Tasks with other indices stay where one task is taken out. -/
theorem filter_index_ne {front back : List Task} (ho : (front ++ t :: back).Pairwise (·.index < ·.index)) :
    (front ++ t :: back).filter (·.index != t.index) = front ++ back := by
  obtain ⟨-, hback, hfront⟩ := List.pairwise_append.mp ho
  have hf : front.filter (·.index != t.index) = front := by
    refine List.filter_eq_self.mpr (fun u hu => ?_)
    have hlt := hfront u hu t List.mem_cons_self
    simp only [bne_iff_ne]
    omega
  have hb : back.filter (·.index != t.index) = back := by
    refine List.filter_eq_self.mpr (fun u hu => ?_)
    have hlt := (List.pairwise_cons.mp hback).1 u hu
    simp only [bne_iff_ne]
    omega
  rw [List.filter_append, List.filter_cons, if_neg (by simp), hf, hb]

/-- Taking a task out leaves all others as they are. -/
theorem Sound.retire_running (h : Sound busy create r pairs g) (ht : t ∈ g.running) (ending : TaskEnd)
    (run : Run σ) :
    ∃ front back, g.running = front ++ t :: back ∧ (g.retire t ending run).running = front ++ back := by
  obtain ⟨front, back, hsplit⟩ := List.append_of_mem ht
  have hordered := h.ordered
  refine ⟨front, back, hsplit, ?_⟩
  show g.running.filter (·.index != t.index) = front ++ back
  rw [hsplit] at hordered ⊢
  exact filter_index_ne hordered

/-- A task that ends stays among those that were started. -/
theorem Sound.retire_started (h : Sound busy create r pairs g) (ht : t ∈ g.running) (ending : TaskEnd)
    (run : Run σ) : (g.retire t ending run).started = g.started := by
  obtain ⟨front, back, hsplit, hrest⟩ := h.retire_running ht ending run
  unfold started
  rw [hrest, hsplit]
  show _ + (g.ended ++ [_]).length = _
  simp only [List.length_append, List.length_cons, List.length_nil]
  omega

/-- **A task that ends** behind the first turns keeps the invariant: what it held is free again, and it
    has ended instead of running. -/
theorem Sound.retire (h : Sound busy create r pairs g) (hs : g.started = pairs.length) (ht : t ∈ g.running)
    {ending : TaskEnd} {run : Run σ} (hf : g.run.fired = true → run.fired = true)
    (he : EndOf busy create r pairs ⟨t.index, t.pair, ending⟩)
    (hc : ∀ cause, ending = .cancelled cause → run.fired = true ∨ g.ended ≠ []) :
    Sound busy create r pairs (g.retire t ending run) := by
  have hsub : (g.retire t ending run).running.Sublist g.running := List.filter_sublist
  have hcount := h.retire_started ht ending run
  obtain ⟨front, back, hsplit, hrest⟩ := h.retire_running ht ending run
  refine ⟨?_, by omega, ?_, h.ordered.sublist hsub, h.exclusive.sublist hsub,
    fun u hu => h.free u (hsub.subset hu), fun u hu => h.tasks u (hsub.subset hu), ?_, ?_⟩
  · intro hlt
    omega
  · have hindices := h.indices
    rw [hsplit] at hindices
    rw [hcount, hrest]
    refine List.Perm.trans ?_ hindices
    show (_ ++ (g.ended ++ [_]).map _).Perm _
    simp only [List.map_append, List.map_cons, List.map_nil]
    -- the index of the task moves from between the others to the end
    have hmove : (back.map (·.index) ++ (g.ended.map (·.index) ++ [t.index])).Perm
        (t.index :: back.map (·.index) ++ g.ended.map (·.index)) := by
      rw [← List.append_assoc]
      exact List.perm_append_comm
    rw [List.append_assoc, List.append_assoc]
    exact hmove.append_left _
  · intro e hmem
    rcases List.mem_append.mp hmem with hmem | hmem
    · exact h.ends e hmem
    · rw [List.mem_singleton.mp hmem]
      exact he
  · intro k e cause hk hcause
    rcases Nat.lt_or_ge k g.ended.length with hlt | hge
    · have hold : g.ended[k]? = some e := (List.getElem?_append_left hlt).symm.trans hk
      exact (h.causes k e cause hold hcause).imp hf id
    · have hnew : [(⟨t.index, t.pair, ending⟩ : Ended)][k - g.ended.length]? = some e :=
        (List.getElem?_append_right hge).symm.trans hk
      have hmem := List.mem_singleton.mp (List.mem_of_getElem? hnew)
      subst hmem
      exact (hc cause hcause).imp id (fun hne => Nat.lt_of_lt_of_le (List.length_pos_iff.mpr hne) hge)

/-- A change of the record alone keeps the invariant, once all pairs have been started. -/
theorem Sound.rerun (h : Sound busy create r pairs g) (hs : g.started = pairs.length) {run : Run σ}
    (hf : g.run.fired = true → run.fired = true) : Sound busy create r pairs { g with run } where
  turns := by
    intro hlt
    exact absurd hs (Nat.ne_of_lt hlt)
  within := h.within
  indices := h.indices
  ordered := h.ordered
  exclusive := h.exclusive
  free := h.free
  tasks := h.tasks
  ends := h.ends
  causes := fun k e cause hk hcause => (h.causes k e cause hk hcause).imp hf id

theorem TaskOf.ends_stop {time : Nat} {how : Stop} (h : TaskOf busy create r pairs t)
    (hw : t.forwarder.script = some (time, how)) :
    EndOf busy create r pairs ⟨t.index, t.pair, endOfStop how⟩ := by
  rw [h.forwarder] at hw
  exact .own h.pair h.serves.bound (.stops hw how.ends_endOfStop)

theorem TaskOf.ends_cancelled (h : TaskOf busy create r pairs t) :
    EndOf busy create r pairs ⟨t.index, t.pair, .cancelled t.forwarder.onCancel⟩ := by
  rw [h.forwarder]
  exact .cancelled h.pair h.serves.bound

/-- **Every event keeps the invariant.** -/
theorem Sound.event (h : Sound busy create r pairs g) (he : Event busy create pairs g g') :
    Sound busy create r pairs g' := by
  cases he with
  | @turn pair hp =>
    rcases ends_or_serves busy create g pair with ⟨ending, hends⟩ | hserves
    · exact h.turn_ends hp hends
    · exact h.turn_serves hp hserves
  | fire hs => exact h.rerun hs (fun _ => rfl)
  | @stop t time how hs ht hw =>
    refine h.retire hs ht id ((h.tasks t ht).ends_stop hw) ?_
    intro cause hcause
    exact absurd hcause (how.ends_endOfStop.own.2 cause)
  | @cancel t hs hc ht => exact h.retire hs ht id (h.tasks t ht).ends_cancelled (fun _ _ => hc)
  | discard hs => exact h.rerun hs id

/-- **Every reachable state satisfies the invariant.** -/
theorem Reachable.sound (h : Reachable busy create r pairs g) : Sound busy create r pairs g := by
  induction h with
  | init => exact sound_init
  | step _ he ih => exact ih.event he

/-! ## The group -/

variable (busy create r) in
/-- First turns lead through reachable states. -/
theorem before_reachable {i : Nat} (hi : i ≤ pairs.length) :
    Reachable busy create r pairs (before busy create r pairs i) ∧
      (before busy create r pairs i).started = i := by
  induction i with
  | zero => exact ⟨.init, rfl⟩
  | succ i ih =>
    obtain ⟨hr, hs⟩ := ih (by omega)
    have hp : pairs[i]? = some pairs[i] := List.getElem?_eq_getElem (by omega)
    have hturn : pairs[(before busy create r pairs i).started]? = some pairs[i] := by rw [hs, hp]
    have hnext := hr.step (.turn hturn)
    rw [hs, ← before_succ hp] at hnext
    exact ⟨hnext, by rw [before_succ hp, start_started, hs]⟩

/-- Cancelling the first of the running tasks, and then all others, cancels all. -/
theorem cancelAll_cancel {tasks : List Task} (hr : g.running = t :: tasks)
    (ho : g.running.Pairwise (·.index < ·.index)) :
    (g.cancel t).running = tasks ∧ (g.cancel t).cancelAll = g.cancelAll := by
  have hrest : (g.cancel t).running = tasks := by
    show g.running.filter (·.index != t.index) = tasks
    rw [hr] at ho ⊢
    have hrest := @filter_index_ne t [] tasks ho
    exact hrest
  refine ⟨hrest, ?_⟩
  unfold cancelAll
  rw [hrest, hr]
  show Group.mk _ _ (g.ended ++ [cancelled t] ++ tasks.map cancelled) = Group.mk _ _ _
  rw [List.map_cons, List.append_assoc, List.singleton_append, List.flatMap_cons]
  unfold cancel retire Run.write
  dsimp only
  rw [List.append_assoc]

/-- Tasks that are cancelled end one by one. -/
theorem Reachable.cancelAll (h : Reachable busy create r pairs g) (hs : g.started = pairs.length)
    (hc : g.ScopeCancelled ∨ g.running = []) :
    Reachable busy create r pairs g.cancelAll ∧ g.cancelAll.started = pairs.length := by
  generalize hr : g.running = tasks
  -- on the running tasks: the first is cancelled, which leaves the group with the others
  induction tasks generalizing g with
  | nil =>
    have hsame : g.cancelAll = g := by
      unfold Group.cancelAll Run.write
      rw [hr]
      simp only [List.flatMap_nil, List.map_nil, List.append_nil]
      rw [← hr]
    rw [hsame]
    exact ⟨h, hs⟩
  | cons t tasks ih =>
    have hmem : t ∈ g.running := by
      rw [hr]
      exact List.mem_cons_self
    have hscope : g.ScopeCancelled := hc.resolve_right (List.ne_nil_of_mem hmem)
    obtain ⟨hrest, hall⟩ := cancelAll_cancel hr h.sound.ordered
    rw [← hall]
    refine ih (h.step (.cancel hs hscope hmem)) ?_ (Or.inl (Or.inr ?_)) hrest
    · rw [← hs]
      exact h.sound.retire_started hmem _ _
    · exact List.append_ne_nil_of_right_ne_nil _ (List.cons_ne_nil _ _)

/-- Unwinding leads through reachable states. -/
theorem Reachable.unwind (h : Reachable busy create r pairs g) (hs : g.started = pairs.length)
    (hc : g.ScopeCancelled ∨ g.running = []) :
    Reachable busy create r pairs g.unwind ∧ g.unwind.started = pairs.length := by
  have hdropped : Reachable busy create r pairs (g.discard (g.ended.drop 1)) := h.step (.discard hs)
  obtain ⟨hall, hcount⟩ := hdropped.cancelAll hs hc
  unfold Group.unwind
  dsimp only
  split
  · exact ⟨hall.step (.discard hcount), hcount⟩
  · exact ⟨hall.step (.discard hcount), hcount⟩

/-- Settling leads through reachable states. -/
theorem settle_reachable (hs : (before busy create r pairs pairs.length).settle = some g) :
    Reachable busy create r pairs g ∧ g.started = pairs.length := by
  obtain ⟨hr, hcount⟩ := before_reachable busy create r (Nat.le_refl pairs.length)
  -- at most one event comes before the unwinding: a stop, or the token
  rcases settle_cases hs with ⟨hc, rfl⟩ | ⟨t, time, how, ht, rfl⟩ | rfl
  · refine hr.unwind hcount ?_
    rcases hc with he | hrun | hf
    · exact Or.inl (Or.inr he)
    · exact Or.inr hrun
    · exact Or.inl (Or.inl hf)
  · obtain ⟨front, back, hsplit, hscript, -⟩ := ht
    have hmem : t ∈ (before busy create r pairs pairs.length).running := by simp [hsplit]
    refine (hr.step (.stop hcount hmem hscript)).unwind ?_ (Or.inl (Or.inr ?_))
    · exact (hr.sound.retire_started hmem _ _).trans hcount
    · exact List.append_ne_nil_of_right_ne_nil _ (List.cons_ne_nil _ _)
  · exact (hr.step (.fire hcount)).unwind hcount (Or.inl (Or.inl rfl))

theorem settle_running {g₀ : Group σ} (hs : g₀.settle = some g) : g.running = [] := by
  rcases settle_cases hs with ⟨-, rfl⟩ | ⟨t, -, how, -, rfl⟩ | rfl
  · exact unwind_running _
  · exact unwind_running _
  · exact unwind_running _

/-- The name of the forwarder that a task has had, if its port could be bound. -/
def nameOf? (e : Ended) : Option String :=
  match e.ending with
  | .unbound _ => none
  | _ => some (forwardName e.pair.remote)

theorem forwards_names (g : Group σ) :
    g.forwards.map (·.1) = (g.ended.mergeSort (·.index ≤ ·.index)).filterMap nameOf? := by
  unfold forwards
  rw [List.map_filterMap]
  refine List.filterMap_congr (fun e _ => ?_)
  unfold nameOf?
  cases e.ending <;> rfl

/-- A task has had a forwarder exactly where the port of its pair could be bound. -/
theorem EndOf.nameOf?_eq {e : Ended} (h : EndOf busy create r pairs e) :
    nameOf? e = (pairs[e.index]?.filter fun pair =>
      ((before busy create r pairs e.index).bindFault? busy pair.localPort).isNone).map (forwardName ·.remote) := by
  cases h with
  | unbound hp hb =>
    dsimp only
    rw [hp, Option.filter_some, if_neg (by simp [hb])]
    rfl
  | own hp hb ho =>
    dsimp only
    rw [hp, Option.filter_some, if_pos (by simp [hb])]
    cases ho with
    | refuses _ he => cases he <;> rfl
    | stops _ he => cases he <;> rfl
  | cancelled hp hb =>
    dsimp only
    rw [hp, Option.filter_some, if_pos (by simp [hb])]
    rfl

/-- Ended tasks in the order of the pairs, where all pairs have ended. -/
theorem sorted_indices {n : Nat} {ended : List Ended} (h : (ended.map (·.index)).Perm (List.range n)) :
    (ended.mergeSort (·.index ≤ ·.index)).map (·.index) = List.range n := by
  have hperm := ((List.mergeSort_perm ended (·.index ≤ ·.index)).map (·.index)).trans h
  refine hperm.eq_of_pairwise' (r := (· ≤ ·)) ?_ List.pairwise_le_range
  rw [List.pairwise_map]
  have htrans : ∀ a b c : Ended, decide (a.index ≤ b.index) = true → decide (b.index ≤ c.index) = true →
      decide (a.index ≤ c.index) = true := by
    intro a b c hab hbc
    exact decide_eq_true (Nat.le_trans (of_decide_eq_true hab) (of_decide_eq_true hbc))
  have htotal : ∀ a b : Ended, (decide (a.index ≤ b.index) || decide (b.index ≤ a.index)) = true := by
    intro a b
    rw [Bool.or_eq_true, decide_eq_true_eq, decide_eq_true_eq]
    exact Nat.le_total _ _
  exact (List.pairwise_mergeSort htrans htotal ended).imp (fun hle => of_decide_eq_true hle)

/-- **A group has unwound**: nothing runs, nothing is held, every pair has been started and has ended once,
    and so has every forwarder that was created. -/
structure Unwound (busy : Port → Option SystemError) (create : String → Int → σ → Reply σ Forwarder)
    (r : Run σ) (pairs : List ForwardRequest) (g : Group σ) : Prop where
  running : g.running = []
  held : g.held = []
  started : (g.ended.map (·.index)).Perm (List.range pairs.length)
  ends : ∀ e ∈ g.ended, EndOf busy create r pairs e
  causes : ∀ k e cause, g.ended[k]? = some e → e.ending = .cancelled cause → g.run.fired = true ∨ 0 < k
  forwards : g.forwards.map (·.1) = (bound busy create r pairs pairs.length).map (forwardName ·.remote)

/-- **A reachable group in which all pairs were started and nothing runs has unwound.** -/
theorem Reachable.unwound (h : Reachable busy create r pairs g) (hs : g.started = pairs.length)
    (hr : g.running = []) : Unwound busy create r pairs g := by
  have hindices : (g.ended.map (·.index)).Perm (List.range pairs.length) := by
    have hall := h.sound.indices
    rw [hr, hs] at hall
    exact hall
  refine ⟨hr, by unfold held; rw [hr]; rfl, hindices, h.sound.ends, h.sound.causes, ?_⟩
  have hname : ∀ e ∈ g.ended.mergeSort (·.index ≤ ·.index), nameOf? e =
      (pairs[e.index]?.filter fun pair =>
        ((before busy create r pairs e.index).bindFault? busy pair.localPort).isNone).map
          (forwardName ·.remote) :=
    fun e he => (h.sound.ends e (List.mem_mergeSort.mp he)).nameOf?_eq
  -- sorted by their indices, the ends run through the pairs as `bound` does
  rw [forwards_names, List.filterMap_congr hname]
  unfold bound
  rw [List.map_filterMap, ← sorted_indices hindices, List.filterMap_map]
  rfl

/-- **A turn cannot bind its port** exactly where the port is busy, or is not 0 and held by an earlier pair
    that still runs. -/
theorem Sound.unbound_iff (h : Sound busy create r pairs g) (pair : ForwardRequest) :
    (∃ e, (g.start busy create g.started pair).ended = g.ended ++ [⟨g.started, pair, .unbound e⟩]) ↔
      (busy pair.localPort).isSome = true ∨
        (pair.localPort ≠ 0 ∧ ∃ t ∈ g.running, t.index < g.started ∧ t.pair.localPort = pair.localPort) := by
  have hheld : (∃ t ∈ g.running, t.index < g.started ∧ t.pair.localPort = pair.localPort) ↔
      ∃ t ∈ g.running, t.pair.localPort = pair.localPort :=
    ⟨fun ⟨t, ht, _, hport⟩ => ⟨t, ht, hport⟩, fun ⟨t, ht, hport⟩ => ⟨t, ht, h.index_lt ht, hport⟩⟩
  rw [hheld, ← bindFault?_isSome_iff]
  constructor
  · rintro ⟨e, he⟩
    rcases ends_or_serves busy create g pair with ⟨ending, hends⟩ | hserves
    · have heq := (hends.start g.started).1.symm.trans he
      have hending : ending = .unbound e := by simpa using heq
      exact hends.bindFault_of_unbound hending
    · have heq := (hserves.start g.started).1.symm.trans he
      exact absurd heq (by simp)
  · intro hb
    obtain ⟨e, he⟩ := Option.isSome_iff_exists.mp hb
    exact ⟨e, by rw [start_unbound he]⟩

end Group

/-- **A group holds every port once, and lets go of all it has held.** Whatever the pairs, the busy ports,
    the forwarders and the token do:
    - in every reachable state no two running tasks hold the same port other than 0, none holds a busy one,
      and the next pair fails to bind exactly where its port is busy or held by an earlier pair;
    - the group goes through reachable states, and starts every pair;
    - the pairs that were bound, and no others, are announced once, as information, and have one forwarder,
      in their order;
    - where the group returns, it has unwound. -/
theorem Group.forwardTogether_unwinds {σ : Type} (busy : Port → Option SystemError)
    (create : String → Int → σ → Reply σ Forwarder) (pairs : List ForwardRequest) (r : Run σ) :
    (∀ g, Reachable busy create r pairs g →
      (g.running.Pairwise fun t u => t.pair.localPort ≠ 0 → t.pair.localPort ≠ u.pair.localPort) ∧
      (∀ t ∈ g.running, busy t.pair.localPort = none) ∧
      ∀ pair, pairs[g.started]? = some pair →
        ((∃ e, (g.start busy create g.started pair).ended = g.ended ++ [⟨g.started, pair, .unbound e⟩]) ↔
          (busy pair.localPort).isSome = true ∨
            (pair.localPort ≠ 0 ∧
              ∃ t ∈ g.running, t.index < g.started ∧ t.pair.localPort = pair.localPort))) ∧
    (∀ i ≤ pairs.length, Reachable busy create r pairs (before busy create r pairs i) ∧
      (before busy create r pairs i).started = i) ∧
    (∃ lines trace,
      (forwardTogether busy create pairs r).2.log = r.log ++ lines ∧
      lines.filterMap pairOf? = bound busy create r pairs pairs.length ∧
      (∀ line ∈ lines, ∀ pair, pairOf? line = some pair → line.level = .info) ∧
      r.Leads trace (forwardTogether busy create pairs r).2 ∧
      trace.map (·.call) = (bound busy create r pairs pairs.length).map creation) ∧
    ((forwardTogether busy create pairs r).1 ≠ .waiting → ∃ g, Reachable busy create r pairs g ∧
      forwardTogether busy create pairs r = (g.outcome, { g.run with forwards := g.forwards }) ∧
      Unwound busy create r pairs g) := by
  refine ⟨?_, fun i hi => before_reachable busy create r hi, ?_, ?_⟩
  · intro g hg
    exact ⟨hg.sound.exclusive, hg.sound.free, fun pair _ => hg.sound.unbound_iff pair⟩
  · obtain ⟨lines, trace, hlog, hlines, hleads, htrace⟩ := forwardTogether_record busy create pairs r
    exact ⟨lines, trace, hlog, hlines, fun _ _ _ h => level_of_pairOf? h, hleads, htrace⟩
  · intro hreturns
    cases hs : (before busy create r pairs pairs.length).settle with
    | none =>
      rw [forwardTogether_of_wait hs] at hreturns
      exact absurd rfl hreturns
    | some g =>
      obtain ⟨hreach, hcount⟩ := settle_reachable hs
      exact ⟨g, hreach, forwardTogether_of_settle hs, hreach.unwound hcount (settle_running hs)⟩

end SharedPorts
