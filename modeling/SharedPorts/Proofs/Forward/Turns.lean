import SharedPorts.Proofs.Service.Trace

/-!
# `SharedPorts.Proofs.Forward.Turns` — what a first turn does

Every task of a group takes its first turn before any of them learns of another's end. A first turn either
ends its task at once, for one of four reasons, or leaves it serving its port. This module says which, and
what the turn adds to the record of the run; later modules never open `Group.start` again.

## Contents
- **Stops.** `Stop.Ends`, how a task ends whose forwarder ends by itself.
- **Turns.** `Group.created`, `Group.firedAt`, `Group.EndsAtOnce` and `Group.Serves`; what `Group.start`
  comes to in either case.
- **The record.** `start_leads`, the calls of a turn, and `start_log`, its lines.
- **All turns.** `Group.before`, the group when it is the turn of some pair.
- **What is bound.** `Group.bound`, the pairs whose ports could be bound, and `before_record`, what they
  have left in the record.
-/

namespace SharedPorts

/-! ## Stops -/

/-- How a task ends whose forwarder ends by itself. -/
inductive Stop.Ends : Stop → TaskEnd → Prop
  | stops (cause : Cause) : Ends (.stops cause) (.stopped cause)
  | panics : Ends .panics .panicked

theorem Stop.ends_endOfStop (how : Stop) : how.Ends (Group.endOfStop how) := by
  cases how with
  | stops cause => exact .stops cause
  | panics => exact .panics

theorem Stop.Ends.endOfStop_eq {how : Stop} {ending : TaskEnd} (h : how.Ends ending) :
    Group.endOfStop how = ending := by
  cases h <;> rfl

/-- Nobody is to blame for such an end but the forwarder. -/
theorem Stop.Ends.own {how : Stop} {ending : TaskEnd} (h : how.Ends ending) :
    (∀ e, ending ≠ .unbound e) ∧ ∀ cause, ending ≠ .cancelled cause := by
  cases h <;> simp

namespace Group

variable {σ : Type} {busy : Port → Option SystemError} {create : String → Int → σ → Reply σ Forwarder}
variable {g : Group σ} {pair : ForwardRequest}

/-! ## Turns -/

/-- What creating the forwarder of a pair comes to. -/
def created (create : String → Int → σ → Reply σ Forwarder) (g : Group σ) (pair : ForwardRequest) :
    Reply σ Forwarder :=
  create (forwardName pair.remote) pair.remote g.run.state

/-- Whether the token has fired when the forwarder of a pair is started. -/
def firedAt (create : String → Int → σ → Reply σ Forwarder) (g : Group σ) (pair : ForwardRequest) : Bool :=
  g.run.fired || (g.created create pair).fired || (g.created create pair).late

/-- **A pair ends in its first turn**: its port cannot be bound, its forwarder ends before it looks at the
    token, the token has fired by then, or the forwarder ends at once behind that. -/
inductive EndsAtOnce (busy : Port → Option SystemError) (create : String → Int → σ → Reply σ Forwarder)
    (g : Group σ) (pair : ForwardRequest) : TaskEnd → Prop
  | unbound {e : SystemError} (hb : g.bindFault? busy pair.localPort = some e) :
      EndsAtOnce busy create g pair (.unbound e)
  | refuses {how : Stop} {ending : TaskEnd} (hb : g.bindFault? busy pair.localPort = none)
      (hr : (g.created create pair).value.refusal = some how) (he : how.Ends ending) :
      EndsAtOnce busy create g pair ending
  | cancelled (hb : g.bindFault? busy pair.localPort = none)
      (hr : (g.created create pair).value.refusal = none) (hf : g.firedAt create pair = true) :
      EndsAtOnce busy create g pair (.cancelled (g.created create pair).value.onCancel)
  | stops {how : Stop} {ending : TaskEnd} (hb : g.bindFault? busy pair.localPort = none)
      (hr : (g.created create pair).value.refusal = none) (hf : g.firedAt create pair = false)
      (hs : (g.created create pair).value.script = some (0, how)) (he : how.Ends ending) :
      EndsAtOnce busy create g pair ending

/-- **A pair serves** after its first turn: its port is bound, and nothing has ended its forwarder yet. -/
structure Serves (busy : Port → Option SystemError) (create : String → Int → σ → Reply σ Forwarder)
    (g : Group σ) (pair : ForwardRequest) : Prop where
  bound : g.bindFault? busy pair.localPort = none
  willing : (g.created create pair).value.refusal = none
  unfired : g.firedAt create pair = false
  lasting : ∀ how, (g.created create pair).value.script ≠ some (0, how)

/-- The record once the port of a pair is bound and its forwarder created. -/
def boundRun (create : String → Int → σ → Reply σ Forwarder) (g : Group σ) (pair : ForwardRequest) : Run σ :=
  ((g.run.write [.forwarding pair]).call (.forwarder (forwardName pair.remote) pair.remote)
    (create (forwardName pair.remote) pair.remote)).2

/-- The turn of a pair whose port cannot be bound only records the end of its task. -/
theorem start_unbound {e : SystemError} (h : g.bindFault? busy pair.localPort = some e) (i : Nat) :
    g.start busy create i pair = { g with ended := g.ended ++ [⟨i, pair, .unbound e⟩] } := by
  unfold start
  rw [h]

/-- The turn of a pair whose port is bound, by what its forwarder does first. -/
theorem start_bound (h : g.bindFault? busy pair.localPort = none) (i : Nat) :
    g.start busy create i pair =
      match firstEnd? (g.created create pair).value (g.firedAt create pair) with
      | some (ending, log) =>
        { g with
          run := (g.boundRun create pair).write (log.map .note)
          ended := g.ended ++ [⟨i, pair, ending⟩] }
      | none =>
        { g with
          run := g.boundRun create pair
          running := g.running ++ [⟨i, pair, (g.created create pair).value⟩] } := by
  unfold start
  rw [h]
  rfl

/-- What a forwarder does first, where its task ends at once. -/
theorem EndsAtOnce.start {ending : TaskEnd} (h : EndsAtOnce busy create g pair ending) (i : Nat) :
    (g.start busy create i pair).ended = g.ended ++ [⟨i, pair, ending⟩] ∧
      (g.start busy create i pair).running = g.running := by
  cases h with
  | unbound hb =>
    rw [start_unbound hb]
    exact ⟨rfl, rfl⟩
  | @refuses how _ hb hr he =>
    have hfirst : ∀ fired, firstEnd? (g.created create pair).value fired = some (ending, []) := by
      intro fired
      simp only [firstEnd?, hr, he.endOfStop_eq]
    rw [start_bound hb, hfirst]
    exact ⟨rfl, rfl⟩
  | cancelled hb hr hf =>
    have hfirst : firstEnd? (g.created create pair).value true =
        some (.cancelled (g.created create pair).value.onCancel, (g.created create pair).value.farewell) := by
      simp only [firstEnd?, hr, if_true]
    rw [start_bound hb, hf, hfirst]
    exact ⟨rfl, rfl⟩
  | @stops how _ hb hr hf hs he =>
    have hfirst : firstEnd? (g.created create pair).value false = some (ending, []) := by
      simp only [firstEnd?, hr, hs, Bool.false_eq_true, if_false, he.endOfStop_eq]
    rw [start_bound hb, hf, hfirst]
    exact ⟨rfl, rfl⟩

/-- A pair that serves is one more running task. -/
theorem Serves.start (h : Serves busy create g pair) (i : Nat) :
    (g.start busy create i pair).ended = g.ended ∧
      (g.start busy create i pair).running =
        g.running ++ [⟨i, pair, (g.created create pair).value⟩] ∧
      (g.start busy create i pair).run = g.boundRun create pair := by
  have hfirst : firstEnd? (g.created create pair).value false = none := by
    -- the last row of the look at the script is taken, by `hs`
    have hs := h.lasting
    simp only [firstEnd?, h.willing, Bool.false_eq_true, if_false]
  rw [start_bound h.bound, h.unfired, hfirst]
  exact ⟨rfl, rfl, rfl⟩

/-- **Every first turn ends its task or leaves it serving.** -/
theorem ends_or_serves (busy : Port → Option SystemError) (create : String → Int → σ → Reply σ Forwarder)
    (g : Group σ) (pair : ForwardRequest) :
    (∃ ending, EndsAtOnce busy create g pair ending) ∨ Serves busy create g pair := by
  cases hb : g.bindFault? busy pair.localPort with
  | some e => exact Or.inl ⟨_, .unbound hb⟩
  | none =>
    cases hr : (g.created create pair).value.refusal with
    | some how => exact Or.inl ⟨_, .refuses hb hr how.ends_endOfStop⟩
    | none =>
      cases hf : g.firedAt create pair with
      | true => exact Or.inl ⟨_, .cancelled hb hr hf⟩
      | false =>
        by_cases hs : ∃ how, (g.created create pair).value.script = some (0, how)
        · obtain ⟨how, hs⟩ := hs
          exact Or.inl ⟨_, .stops hb hr hf hs how.ends_endOfStop⟩
        · exact Or.inr ⟨hb, hr, hf, fun how h => hs ⟨how, h⟩⟩

/-! ## The record

A turn that binds its port logs the pair and creates one forwarder; a turn that cannot bind does neither. -/

/-- The pair that a line announces. -/
def pairOf? : LogLine → Option ForwardRequest
  | .forwarding pair => some pair
  | _ => none

/-- Pairs are announced to the user, as information. -/
theorem level_of_pairOf? {line : LogLine} (h : pairOf? line = some pair) : line.level = .info := by
  cases line with
  | forwarding _ => rfl
  | note _ | loading | labelsMissing _ | labelsUnread _ | nowScoped _ | discarded _ | closeFailed _ =>
    exact absurd h (by simp [pairOf?])

theorem filterMap_pairOf?_notes (notes : List Note) : (notes.map LogLine.note).filterMap pairOf? = [] := by
  rw [List.filterMap_map]
  exact List.filterMap_eq_nil_iff.mpr (fun _ _ => rfl)

variable (create) in
/-- The run after the turn of a pair whose port is bound; the notes are what its forwarder logs. -/
theorem start_run_of_bound (h : g.bindFault? busy pair.localPort = none) (i : Nat) :
    ∃ notes : List Note,
      (g.start busy create i pair).run = (g.boundRun create pair).write (notes.map .note) := by
  rw [start_bound h]
  cases firstEnd? (g.created create pair).value (g.firedAt create pair) with
  | none => exact ⟨[], by simp [Run.write]⟩
  | some first => exact ⟨first.2, rfl⟩

variable (create) in
/-- The lines of a turn whose port is bound. -/
theorem start_log_of_bound (h : g.bindFault? busy pair.localPort = none) (i : Nat) :
    ∃ lines, (g.start busy create i pair).run.log = g.run.log ++ lines ∧ lines.filterMap pairOf? = [pair] := by
  obtain ⟨notes, hrun⟩ := start_run_of_bound create h i
  have hlog : (g.boundRun create pair).log =
      g.run.log ++ .forwarding pair :: (g.created create pair).log.map .note := by
    show g.run.log ++ [.forwarding pair] ++ (g.created create pair).log.map .note = _
    rw [List.append_assoc, List.singleton_append]
  refine ⟨.forwarding pair :: (g.created create pair).log.map .note ++ notes.map .note, ?_, ?_⟩
  · rw [hrun]
    show (g.boundRun create pair).log ++ notes.map .note = _
    rw [hlog, List.append_assoc]
  · rw [List.filterMap_append, List.filterMap_cons_some (show pairOf? (.forwarding pair) = some pair from rfl),
      filterMap_pairOf?_notes, filterMap_pairOf?_notes, List.append_nil]

/-- The trace of a turn whose port is bound: one forwarder is created. -/
theorem start_leads_of_bound (h : g.bindFault? busy pair.localPort = none) (i : Nat) :
    g.run.Leads [⟨.forwarder (forwardName pair.remote) pair.remote, g.run.fired⟩]
      (g.start busy create i pair).run := by
  obtain ⟨notes, hrun⟩ := start_run_of_bound create h i
  have hcall := (g.run.write [.forwarding pair]).leads_call (.forwarder (forwardName pair.remote) pair.remote)
    (create (forwardName pair.remote) pair.remote)
  rw [hrun]
  exact (g.run.leads_write _).trans (hcall.trans (Run.leads_write _ _))

/-- Nothing changes the time at which the token will fire. -/
theorem start_deadline (i : Nat) : (g.start busy create i pair).run.deadline = g.run.deadline := by
  cases hb : g.bindFault? busy pair.localPort with
  | some e => rw [start_unbound hb]
  | none =>
    obtain ⟨notes, hrun⟩ := start_run_of_bound create hb i
    rw [hrun]
    rfl

/-! ## All turns -/

/-- The group when it is the turn of the pair at `i`. -/
def before (busy : Port → Option SystemError) (create : String → Int → σ → Reply σ Forwarder) (r : Run σ)
    (pairs : List ForwardRequest) (i : Nat) : Group σ :=
  startAll busy create { run := r } 0 (pairs.take i)

variable {r : Run σ} {pairs : List ForwardRequest} {i : Nat}

theorem startAll_append (g : Group σ) (k : Nat) (ps qs : List ForwardRequest) :
    startAll busy create g k (ps ++ qs) =
      startAll busy create (startAll busy create g k ps) (k + ps.length) qs := by
  induction ps generalizing g k with
  | nil => rfl
  | cons p ps ih =>
    rw [List.cons_append, startAll, ih, startAll, List.length_cons, Nat.add_assoc, Nat.add_comm 1]

/-- Turns follow each other in the order of the pairs. -/
theorem before_succ (h : pairs[i]? = some pair) :
    before busy create r pairs (i + 1) = (before busy create r pairs i).start busy create i pair := by
  have hi : i < pairs.length := (List.getElem?_eq_some_iff.mp h).1
  -- `startAll` takes the pairs from the front, so the last of them is split off behind
  have htake : pairs.take (i + 1) = pairs.take i ++ [pair] := by
    rw [List.take_add_one, h]
    rfl
  have hlen : (pairs.take i).length = i := by
    rw [List.length_take]
    omega
  unfold before
  rw [htake, startAll_append, hlen, Nat.zero_add]
  rfl

theorem before_length :
    before busy create r pairs pairs.length = startAll busy create { run := r } 0 pairs := by
  unfold before
  rw [List.take_length]

theorem before_deadline (i : Nat) : (before busy create r pairs i).run.deadline = r.deadline := by
  induction i with
  | zero => rfl
  | succ i ih =>
    cases hp : pairs[i]? with
    | some pair => rw [before_succ hp, start_deadline, ih]
    | none =>
      -- behind the last pair there is no turn to take
      have hi : pairs.length ≤ i := List.getElem?_eq_none_iff.mp hp
      unfold before at ih ⊢
      rw [List.take_of_length_le (by omega)] at ih ⊢
      exact ih

/-! ## What is bound -/

/-- The call that creates the forwarder of a pair. -/
def creation (pair : ForwardRequest) : Call := .forwarder (forwardName pair.remote) pair.remote

/-- The pairs among the first `i` whose ports could be bound when it was their turn. -/
def bound (busy : Port → Option SystemError) (create : String → Int → σ → Reply σ Forwarder) (r : Run σ)
    (pairs : List ForwardRequest) (i : Nat) : List ForwardRequest :=
  (List.range i).filterMap fun j =>
    pairs[j]?.filter fun pair => ((before busy create r pairs j).bindFault? busy pair.localPort).isNone

theorem bound_succ (h : pairs[i]? = some pair) :
    bound busy create r pairs (i + 1) =
      bound busy create r pairs i ++
        if ((before busy create r pairs i).bindFault? busy pair.localPort).isNone then [pair] else [] := by
  unfold bound
  rw [List.range_succ, List.filterMap_append]
  congr 1
  cases hb : ((before busy create r pairs i).bindFault? busy pair.localPort).isNone with
  | true => rw [List.filterMap_cons_some (by rw [h, Option.filter_some, if_pos hb])]; rfl
  | false =>
    rw [List.filterMap_cons_none (by rw [h, Option.filter_some, if_neg (by rw [hb]; exact Bool.false_ne_true)])]
    rfl

variable (busy create r pairs) in
/-- Bound pairs stand in the order of the pairs. -/
theorem bound_sublist (i : Nat) : (bound busy create r pairs i).Sublist (pairs.take i) := by
  induction i with
  | zero => exact List.nil_sublist _
  | succ i ih =>
    cases hp : pairs[i]? with
    | none =>
      have hi : pairs.length ≤ i := List.getElem?_eq_none_iff.mp hp
      have hb : bound busy create r pairs (i + 1) = bound busy create r pairs i := by
        unfold bound
        rw [List.range_succ, List.filterMap_append]
        simp [hp]
      rw [hb, List.take_of_length_le (by omega)]
      rw [List.take_of_length_le hi] at ih
      exact ih
    | some pair =>
      rw [bound_succ hp, List.take_add_one, hp]
      refine ih.append ?_
      split
      · exact List.Sublist.refl _
      · exact List.nil_sublist _

variable (busy create r) in
/-- **The record before a turn**: each pair that was bound has announced itself and has one forwarder, in
    the order of the pairs, and no other pair has either. -/
theorem before_record (hi : i ≤ pairs.length) :
    ∃ lines trace,
      (before busy create r pairs i).run.log = r.log ++ lines ∧
      lines.filterMap pairOf? = bound busy create r pairs i ∧
      r.Leads trace (before busy create r pairs i).run ∧
      trace.map (·.call) = (bound busy create r pairs i).map creation := by
  induction i with
  | zero => exact ⟨[], [], (List.append_nil _).symm, rfl, .of_eq rfl id, rfl⟩
  | succ i ih =>
    obtain ⟨lines, trace, hlog, hlines, hleads, htrace⟩ := ih (by omega)
    have hp : pairs[i]? = some pairs[i] := List.getElem?_eq_getElem (by omega)
    rw [bound_succ hp, before_succ hp]
    cases hb : (before busy create r pairs i).bindFault? busy pairs[i].localPort with
    | some e =>
      rw [start_unbound hb]
      exact ⟨lines, trace, hlog, by simp [hlines], hleads, by simp [htrace]⟩
    | none =>
      obtain ⟨new, hnew, hpair⟩ := start_log_of_bound create hb i
      refine ⟨lines ++ new, _, ?_, ?_, hleads.trans (start_leads_of_bound hb i), ?_⟩
      · rw [hnew, hlog, List.append_assoc]
      · rw [List.filterMap_append, hlines, hpair]
        rfl
      · rw [List.map_append, htrace, List.map_append]
        rfl

end Group

end SharedPorts
