import Mathlib.Data.List.Induction
import SharedPorts.Proofs.Forward.Turns

/-!
# `SharedPorts.Proofs.Forward.Endings` — from the first turns to the end of every task

After the first turns one thing at most happens by itself: a task stops, or the caller's token fires. All
else is the unwinding that follows the first end. This module says what unwinding leaves, which of the
running tasks is the first to stop, and which of the possible events comes first.

## Contents
- **Unwinding.** What `Group.unwind` does to the running and ended tasks, and to the record.
- **The first stop.** `Group.Earliest`, and `firstStop?_eq_some_iff`.
- **Settling.** `Group.settle` by what comes first.
- **The group.** `forwardTogether_record`, and its trace, `forwardTogether_leads`.
-/

namespace SharedPorts

namespace Group

variable {σ : Type} {g g' : Group σ}

/-! ## Unwinding -/

theorem unwind_running (g : Group σ) : g.unwind.running = [] := by
  unfold unwind
  split <;> rfl

/-- The tasks that still run end behind those that have ended. -/
theorem unwind_ended (g : Group σ) : g.unwind.ended = g.ended ++ g.running.map cancelled := by
  unfold unwind
  split <;> rfl

theorem unwind_fired (g : Group σ) : g.unwind.run.fired = g.run.fired := by
  unfold unwind
  split <;> rfl

theorem unwind_leads (g : Group σ) : g.run.Leads [] g.unwind.run := by
  refine .of_eq ?_ (fun h => by rw [unwind_fired, h])
  unfold unwind
  split <;> rfl

theorem filterMap_pairOf?_discarded (ended : List Ended) :
    (ended.map fun e => LogLine.discarded e.error).filterMap pairOf? = [] := by
  rw [List.filterMap_map]
  exact List.filterMap_eq_nil_iff.mpr (fun _ _ => rfl)

theorem filterMap_pairOf?_farewells (tasks : List Task) :
    (tasks.flatMap fun t => t.forwarder.farewell.map LogLine.note).filterMap pairOf? = [] := by
  induction tasks with
  | nil => rfl
  | cons t tasks ih => rw [List.flatMap_cons, List.filterMap_append, ih, filterMap_pairOf?_notes]; rfl

/-- Unwinding announces no pair. -/
theorem unwind_log (g : Group σ) :
    ∃ lines, g.unwind.run.log = g.run.log ++ lines ∧ lines.filterMap pairOf? = [] := by
  have key : ∀ others : List Ended, ∃ lines,
      (((g.discard (g.ended.drop 1)).cancelAll).discard others).run.log = g.run.log ++ lines ∧
        lines.filterMap pairOf? = [] := by
    intro others
    refine ⟨(g.ended.drop 1).map (fun e => .discarded e.error) ++
      (g.running.flatMap (fun t => t.forwarder.farewell.map .note) ++
        others.map (fun e => .discarded e.error)), ?_, ?_⟩
    · show g.run.log ++ (g.ended.drop 1).map _ ++ g.running.flatMap _ ++ others.map _ = _
      rw [List.append_assoc, List.append_assoc]
    · rw [List.filterMap_append, List.filterMap_append, filterMap_pairOf?_discarded,
        filterMap_pairOf?_farewells, filterMap_pairOf?_discarded]
      rfl
  unfold unwind
  split
  · exact key _
  · exact key _

/-! ## The first stop -/

/-- **Of some tasks, `t` is the first to stop**, at `time`: those before it stop later if at all, and those
    behind it not earlier. -/
def Earliest (tasks : List Task) (t : Task) (time : Nat) (how : Stop) : Prop :=
  ∃ front back, tasks = front ++ t :: back ∧ t.forwarder.script = some (time, how) ∧
    (∀ u ∈ front, ∀ time' how', u.forwarder.script = some (time', how') → time < time') ∧
    (∀ u ∈ back, ∀ time' how', u.forwarder.script = some (time', how') → time ≤ time')

/-- Only one task is the first to stop. -/
theorem Earliest.unique {tasks : List Task} {t u : Task} {time time' : Nat} {how how' : Stop}
    (h : Earliest tasks t time how) (h' : Earliest tasks u time' how') :
    t = u ∧ time = time' ∧ how = how' := by
  obtain ⟨front, back, heq, hs, hf, hb⟩ := h
  obtain ⟨front', back', heq', hs', hf', hb'⟩ := h'
  have hsplit := heq.symm.trans heq'
  rcases List.append_eq_append_iff.mp hsplit with ⟨mid, h₁, h₂⟩ | ⟨mid, h₁, h₂⟩
  · cases mid with
    | nil =>
      obtain ⟨rfl, -⟩ := List.cons.inj (h₂.trans (List.nil_append _))
      rw [hs] at hs'
      simpa using hs'
    | cons v mid =>
      -- `t` stands before `u`, so each of the two would have to be the earlier one
      rw [List.cons_append] at h₂
      obtain ⟨rfl, hback⟩ := List.cons.inj h₂
      have h₃ := hf' t (by rw [h₁]; simp) time how hs
      have h₄ := hb u (by rw [hback]; simp) time' how' hs'
      omega
  · cases mid with
    | nil =>
      obtain ⟨rfl, -⟩ := List.cons.inj (h₂.trans (List.nil_append _))
      rw [hs] at hs'
      simpa using hs'
    | cons v mid =>
      rw [List.cons_append] at h₂
      obtain ⟨rfl, hback⟩ := List.cons.inj h₂
      have h₃ := hf u (by rw [h₁]; simp) time' how' hs'
      have h₄ := hb' t (by rw [hback]; simp) time how hs
      omega

/-- No task stops before the first. -/
theorem Earliest.le {tasks : List Task} {t u : Task} {time time' : Nat} {how how' : Stop}
    (h : Earliest tasks t time how) (hu : u ∈ tasks) (hs : u.forwarder.script = some (time', how')) :
    time ≤ time' := by
  obtain ⟨front, back, rfl, ht, hf, hb⟩ := h
  rcases List.mem_append.mp hu with hu | hu
  · exact Nat.le_of_lt (hf u hu time' how' hs)
  · rcases List.mem_cons.mp hu with rfl | hu
    · rw [ht] at hs
      obtain ⟨rfl, -⟩ := Prod.mk.inj (Option.some.inj hs)
      exact Nat.le_refl time
    · exact hb u hu time' how' hs

/-- The first to stop remains so when a task that stops no earlier comes behind the others. -/
theorem Earliest.concat {tasks : List Task} {t u : Task} {time : Nat} {how : Stop}
    (h : Earliest tasks t time how)
    (hu : ∀ time' how', u.forwarder.script = some (time', how') → time ≤ time') :
    Earliest (tasks ++ [u]) t time how := by
  obtain ⟨front, back, rfl, ht, hf, hb⟩ := h
  refine ⟨front, back ++ [u], by simp, ht, hf, ?_⟩
  intro v hv
  rcases List.mem_append.mp hv with hv | hv
  · exact hb v hv
  · rw [List.mem_singleton.mp hv]
    exact hu

/-- The last task is the first to stop where all others stop later. -/
theorem earliest_last {tasks : List Task} {t : Task} {time : Nat} {how : Stop}
    (ht : t.forwarder.script = some (time, how))
    (hlater : ∀ u ∈ tasks, ∀ time' how', u.forwarder.script = some (time', how') → time < time') :
    Earliest (tasks ++ [t]) t time how :=
  ⟨tasks, [], rfl, ht, hlater, fun _ hu => absurd hu List.not_mem_nil⟩

theorem firstStop?_concat (tasks : List Task) (t : Task) :
    firstStop? (tasks ++ [t]) =
      match t.forwarder.script, firstStop? tasks with
      | none, best => best
      | some (time, how), none => some (t, time, how)
      | some (time, how), some (u, least, how') =>
        if time < least then some (t, time, how) else some (u, least, how') := by
  unfold firstStop?
  rw [List.foldl_append, List.foldl_cons, List.foldl_nil]
  generalize tasks.foldl _ none = best
  cases t.forwarder.script <;> cases best <;> rfl

/-- What the search for the first stop finds: nothing where no task stops, or the first to stop. -/
theorem firstStop?_spec (tasks : List Task) :
    match firstStop? tasks with
    | none => ∀ u ∈ tasks, u.forwarder.script = none
    | some (t, time, how) => Earliest tasks t time how := by
  -- the search goes from the front, so the induction is on the last task
  induction tasks using List.reverseRecOn with
  | nil => intro u hu; exact absurd hu List.not_mem_nil
  | append_singleton tasks t ih =>
    rw [firstStop?_concat]
    cases hs : t.forwarder.script with
    | none =>
      cases hb : firstStop? tasks with
      | none =>
        rw [hb] at ih
        intro u hu
        rcases List.mem_append.mp hu with hu | hu
        · exact ih u hu
        · rw [List.mem_singleton.mp hu, hs]
      | some best =>
        rw [hb] at ih
        refine ih.concat ?_
        intro time' how' hs'
        rw [hs] at hs'
        exact absurd hs' (by simp)
    | some script =>
      obtain ⟨time, how⟩ := script
      cases hb : firstStop? tasks with
      | none =>
        rw [hb] at ih
        refine earliest_last hs ?_
        intro u hu time' how' hu'
        rw [ih u hu] at hu'
        exact absurd hu' (by simp)
      | some best =>
        obtain ⟨u, least, how'⟩ := best
        rw [hb] at ih
        by_cases hlt : time < least
        · simp only [if_pos hlt]
          refine earliest_last hs ?_
          intro v hv time' how'' hv'
          exact Nat.lt_of_lt_of_le hlt (ih.le hv hv')
        · simp only [if_neg hlt]
          refine ih.concat ?_
          intro time' how'' hs'
          rw [hs] at hs'
          obtain ⟨rfl, -⟩ := Prod.mk.inj (Option.some.inj hs')
          exact Nat.le_of_not_lt hlt

theorem firstStop?_eq_none_iff {tasks : List Task} :
    firstStop? tasks = none ↔ ∀ u ∈ tasks, u.forwarder.script = none := by
  have hspec := firstStop?_spec tasks
  constructor
  · intro h
    rw [h] at hspec
    exact hspec
  · intro h
    cases hb : firstStop? tasks with
    | none => rfl
    | some best =>
      rw [hb] at hspec
      obtain ⟨front, back, rfl, hbest, -⟩ := hspec
      rw [h best.1 (by simp)] at hbest
      exact absurd hbest (by simp)

theorem firstStop?_eq_some_iff {tasks : List Task} {t : Task} {time : Nat} {how : Stop} :
    firstStop? tasks = some (t, time, how) ↔ Earliest tasks t time how := by
  have hspec := firstStop?_spec tasks
  constructor
  · intro h
    rw [h] at hspec
    exact hspec
  · intro h
    cases hb : firstStop? tasks with
    | none =>
      obtain ⟨front, back, rfl, hs, -⟩ := h
      rw [firstStop?_eq_none_iff.mp hb t (by simp)] at hs
      exact absurd hs (by simp)
    | some best =>
      rw [hb] at hspec
      obtain ⟨rfl, rfl, rfl⟩ := h.unique hspec
      rfl

/-! ## Settling -/

/-- The group once the caller's token has fired. -/
def fire (g : Group σ) : Group σ := { g with run := { g.run with fired := true } }

/-- Where a task has ended in its first turn, or none was started, there is nothing to wait for. -/
theorem settle_of_ended (h : g.ended ≠ [] ∨ g.running = []) : g.settle = some g.unwind := by
  have hc : (!g.ended.isEmpty || g.running.isEmpty || g.run.fired) = true := by
    rcases h with h | h <;> simp [h]
  unfold settle
  rw [if_pos hc]

/-- Where all tasks serve, the group waits for the first stop or for the token. -/
theorem settle_of_serving (he : g.ended = []) (hr : g.running ≠ []) (hf : g.run.fired = false) :
    g.settle =
      match firstStop? g.running, g.run.deadline with
      | some (t, time, how), some deadline =>
        if time ≤ deadline then some (g.stop t how).unwind else some g.fire.unwind
      | some (t, _, how), none => some (g.stop t how).unwind
      | none, some _ => some g.fire.unwind
      | none, none => none := by
  have hc : ¬ (!g.ended.isEmpty || g.running.isEmpty || g.run.fired) = true := by
    simp [he, hr, hf]
  unfold settle
  rw [if_neg hc]
  rfl

/-- A task that stops before the token fires is the first end. -/
theorem settle_of_stop {t : Task} {time : Nat} {how : Stop} (he : g.ended = []) (hf : g.run.fired = false)
    (ht : Earliest g.running t time how) (hd : ∀ deadline, g.run.deadline = some deadline → time ≤ deadline) :
    g.settle = some (g.stop t how).unwind := by
  have hr : g.running ≠ [] := by
    obtain ⟨front, back, heq, -⟩ := ht
    simp [heq]
  rw [settle_of_serving he hr hf, firstStop?_eq_some_iff.mpr ht]
  cases hdl : g.run.deadline with
  | none => rfl
  | some deadline =>
    dsimp only
    rw [if_pos (hd deadline hdl)]

/-- A token that fires before any task stops cancels the group. -/
theorem settle_of_token {deadline : Nat} (he : g.ended = []) (hr : g.running ≠ [])
    (hf : g.run.fired = false) (hd : g.run.deadline = some deadline)
    (ht : ∀ t ∈ g.running, ∀ time how, t.forwarder.script = some (time, how) → deadline < time) :
    g.settle = some g.fire.unwind := by
  rw [settle_of_serving he hr hf, hd]
  cases hs : firstStop? g.running with
  | none => rfl
  | some first =>
    -- the first stop is one of the stops that come after the token
    obtain ⟨t, time, how⟩ := first
    obtain ⟨front, back, heq, hscript, -⟩ := firstStop?_eq_some_iff.mp hs
    have hlt := ht t (by simp [heq]) time how hscript
    dsimp only
    rw [if_neg (by omega)]

/-- Where nothing stops and no token fires, the group waits for ever. -/
theorem settle_of_nothing (he : g.ended = []) (hr : g.running ≠ []) (hf : g.run.fired = false)
    (hd : g.run.deadline = none) (ht : ∀ t ∈ g.running, t.forwarder.script = none) : g.settle = none := by
  rw [settle_of_serving he hr hf, hd, firstStop?_eq_none_iff.mpr ht]

/-- **What comes first settles a group**: an end in the first turns, the first stop, or the token. -/
theorem settle_cases (hs : g.settle = some g') :
    ((g.ended ≠ [] ∨ g.running = [] ∨ g.run.fired = true) ∧ g' = g.unwind) ∨
    (∃ t time how, Earliest g.running t time how ∧ g' = (g.stop t how).unwind) ∨
    g' = g.fire.unwind := by
  by_cases hc : g.ended ≠ [] ∨ g.running = [] ∨ g.run.fired = true
  · left
    refine ⟨hc, ?_⟩
    have hb : (!g.ended.isEmpty || g.running.isEmpty || g.run.fired) = true := by
      rcases hc with h | h | h <;> simp [h]
    unfold settle at hs
    rw [if_pos hb] at hs
    exact (Option.some.inj hs).symm
  · right
    simp only [not_or, Classical.not_not, Bool.not_eq_true] at hc
    rw [settle_of_serving hc.1 hc.2.1 hc.2.2] at hs
    cases hb : firstStop? g.running with
    | none =>
      cases hd : g.run.deadline with
      | none => rw [hb, hd] at hs; exact absurd hs (by simp)
      | some deadline => rw [hb, hd] at hs; exact Or.inr (Option.some.inj hs).symm
    | some first =>
      obtain ⟨t, time, how⟩ := first
      have ht := firstStop?_eq_some_iff.mp hb
      cases hd : g.run.deadline with
      | none => rw [hb, hd] at hs; exact Or.inl ⟨t, time, how, ht, (Option.some.inj hs).symm⟩
      | some deadline =>
        rw [hb, hd] at hs
        dsimp only at hs
        by_cases hle : time ≤ deadline
        · rw [if_pos hle] at hs
          exact Or.inl ⟨t, time, how, ht, (Option.some.inj hs).symm⟩
        · rw [if_neg hle] at hs
          exact Or.inr (Option.some.inj hs).symm

/-- Settling makes no call. -/
theorem settle_leads (hs : g.settle = some g') : g.run.Leads [] g'.run := by
  rcases settle_cases hs with ⟨-, rfl⟩ | ⟨t, -, how, -, rfl⟩ | rfl
  · exact g.unwind_leads
  · exact (g.stop t how).unwind_leads
  · have hfire : g.run.Leads [] g.fire.run := .of_eq rfl (fun _ => rfl)
    exact hfire.trans g.fire.unwind_leads

/-- Settling announces no pair. -/
theorem settle_log (hs : g.settle = some g') :
    ∃ lines, g'.run.log = g.run.log ++ lines ∧ lines.filterMap pairOf? = [] := by
  rcases settle_cases hs with ⟨-, rfl⟩ | ⟨t, -, how, -, rfl⟩ | rfl
  · exact g.unwind_log
  · exact (g.stop t how).unwind_log
  · exact g.fire.unwind_log

end Group

/-! ## The group -/

section Group

variable {σ : Type} {busy : Port → Option SystemError} {create : String → Int → σ → Reply σ Forwarder}
variable {pairs : List ForwardRequest} {r : Run σ}

/-- The first end of a settled group is its result. -/
def Group.outcome {σ : Type} (g : Group σ) : Outcome Unit :=
  match g.ended with
  | [] => .done ()
  | e :: _ => .failed e.error

theorem Group.outcome_of_ended {σ : Type} {g : Group σ} {e : Ended} {rest : List Ended}
    (h : g.ended = e :: rest) : g.outcome = .failed e.error := by
  unfold Group.outcome
  rw [h]

theorem forwardTogether_of_settle {g : Group σ}
    (h : (Group.before busy create r pairs pairs.length).settle = some g) :
    forwardTogether busy create pairs r = (g.outcome, { g.run with forwards := g.forwards }) := by
  unfold forwardTogether
  rw [← Group.before_length]
  dsimp only
  rw [h]
  unfold Group.outcome
  dsimp only
  cases g.ended with
  | nil => rfl
  | cons e rest => rfl

theorem forwardTogether_of_wait (h : (Group.before busy create r pairs pairs.length).settle = none) :
    forwardTogether busy create pairs r = (.waiting, (Group.before busy create r pairs pairs.length).run) := by
  unfold forwardTogether
  rw [← Group.before_length]
  dsimp only
  rw [h]

/-- **The record of a group**: what its first turns have left, and lines that announce no pair. -/
theorem forwardTogether_record (busy : Port → Option SystemError)
    (create : String → Int → σ → Reply σ Forwarder) (pairs : List ForwardRequest) (r : Run σ) :
    ∃ lines trace,
      (forwardTogether busy create pairs r).2.log = r.log ++ lines ∧
      lines.filterMap Group.pairOf? = Group.bound busy create r pairs pairs.length ∧
      r.Leads trace (forwardTogether busy create pairs r).2 ∧
      trace.map (·.call) = (Group.bound busy create r pairs pairs.length).map Group.creation := by
  obtain ⟨lines, trace, hlog, hlines, hleads, htrace⟩ :=
    Group.before_record busy create r (Nat.le_refl pairs.length)
  cases hs : (Group.before busy create r pairs pairs.length).settle with
  | none =>
    rw [forwardTogether_of_wait hs]
    exact ⟨lines, trace, hlog, hlines, hleads, htrace⟩
  | some g =>
    obtain ⟨more, hmore, hnone⟩ := Group.settle_log hs
    have hend : g.run.Leads [] { g.run with forwards := g.forwards } := .of_eq rfl id
    have hall := hleads.trans ((Group.settle_leads hs).trans hend)
    rw [List.append_nil, List.append_nil] at hall
    rw [forwardTogether_of_settle hs]
    refine ⟨lines ++ more, trace, ?_, ?_, hall, htrace⟩
    · show g.run.log = _
      rw [hmore, hlog, List.append_assoc]
    · rw [List.filterMap_append, hlines, hnone, List.append_nil]

/-- **A forward** creates one forwarder for each pair at most, in the order of the pairs. -/
theorem forwardTogether_leads (busy : Port → Option SystemError)
    (create : String → Int → σ → Reply σ Forwarder) (pairs : List ForwardRequest) (r : Run σ) :
    ∃ trace, r.Leads trace (forwardTogether busy create pairs r).2 ∧
      SessionWork (fun calls => calls.Sublist (pairs.map Group.creation)) trace := by
  obtain ⟨-, trace, -, -, hleads, htrace⟩ := forwardTogether_record busy create pairs r
  have hmem : ∀ b ∈ trace, ∃ pair, b.call = Group.creation pair := by
    intro b hb
    have hcall : b.call ∈ trace.map (·.call) := List.mem_map_of_mem hb
    rw [htrace] at hcall
    obtain ⟨pair, -, hpair⟩ := List.mem_map.mp hcall
    exact ⟨pair, hpair.symm⟩
  refine ⟨trace, hleads, ?_, ?_, ?_⟩
  · have hsub := Group.bound_sublist busy create r pairs pairs.length
    rw [List.take_length] at hsub
    rw [htrace]
    exact hsub.map _
  · intro b hb
    obtain ⟨pair, hpair⟩ := hmem b hb
    rw [hpair]
    rfl
  · intro b hb hheeds
    obtain ⟨pair, hpair⟩ := hmem b hb
    rw [hpair] at hheeds
    exact absurd hheeds (by simp [Group.creation, Call.heedsToken])

end Group

end SharedPorts
