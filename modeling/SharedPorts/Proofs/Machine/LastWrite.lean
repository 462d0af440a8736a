import SharedPorts.Machine
import SharedPorts.Proofs.Config.Refinement

/-!
# `SharedPorts.Proofs.Machine.LastWrite` — a level is the one that was written last

A session remembers the workspace that it was opened on, but not its levels: these are read from the file
whenever ports are listed, and written to it whenever one is updated. So it makes no difference through
which session a level was set, or whether through the store itself, and whether the workspace was removed in
the meantime and added anew. What counts is the last thing that was done to the level of that port in the
workspace of that name.

## Contents
- **Acts and events.** `Act` and `Event`; `Event.leaves`, the level that an event leaves, and
  `Config.levelAfter`, the level after a list of events.
- **Levels of a configuration.** What each request does to `Config.level?`.
- **Updates.** `Session.Updates`, how the update of a level through a session ends.
- **Runs.** `Machine.act` and `Machine.run`; one act changes the levels as its event says, and so do all:
  `Machine.levels_last_written`.
-/

namespace SharedPorts

/-! ## Acts and events -/

/-- What is asked of a store, or of a session on one of its workspaces. -/
inductive Act
  | request (request : StoreRequest)
  | update (session : Session) (port : Int) (level : String)
  deriving DecidableEq, Repr

/-- What was asked for, and what came of it. -/
inductive Event
  | request (request : StoreRequest) (answer : StoreAnswer)
  | update (session : Session) (port : Int) (level : String) (result : Except MachineError Unit)

/-- The file system has refused to keep an update. -/
def MachineError.isRefusal : MachineError → Bool
  | .config e => e.isRefusal
  | _ => false

namespace Event

/-- The file system has refused to keep what was asked for. -/
def isRefusal : Event → Bool
  | .request _ answer => answer.isRefusal
  | .update _ _ _ (.error e) => e.isRefusal
  | .update _ _ _ (.ok _) => false

theorem not_isRefusal_of_update {session : Session} {n : Int} {level : String}
    {result : Except MachineError Unit} (h : (Event.update session n level result).isRefusal = false) :
    ∀ e, result = .error e → e.isRefusal = false := by
  rintro e rfl
  exact h

/-- **What an event leaves** as the level of a port in a workspace, if it has to do with it: the level that
    was set, the level in the entry that was added, or none, where the workspace was removed. What has failed
    leaves everything as it was. -/
def leaves (name : String) (port : Port) : Event → Option (Option String)
  | .request (.setLevel name' port' level) (.done (.ok ())) =>
    if name' = name ∧ port' = port then some (some level) else none
  | .request (.add entry) (.done (.ok ())) =>
    if entry.name = name then some (entry.privacy.get? port) else none
  | .request (.remove name') (.done (.ok ())) => if name' = name then some none else none
  | .update session n level (.ok ()) =>
    if session.workspace.name = name ∧ n = port.toNat then some (some level) else none
  | _ => none

end Event

namespace Config

/-- The level of a port in the first workspace of a name. -/
def level? (c : Config) (name : String) (port : Port) : Option String :=
  (c.find? name).bind fun e => e.privacy.get? port

/-- **The level after a list of events**: what the last of them leaves that has to do with it. -/
def levelAfter (c : Config) (events : List Event) (name : String) (port : Port) : Option String :=
  (events.reverse.findSome? (Event.leaves name port)).getD (c.level? name port)

/-! ## Levels of a configuration -/

variable {c c' : Config} {name : String} {port : Port} {entry : Entry}

theorem find?_eq_none (h : ∀ d ∈ c.workspaces, d.name ≠ name) : c.find? name = none := by
  apply List.find?_eq_none.mpr
  intro d hd heq
  exact h d hd (beq_iff_eq.mp heq)

/-- The first workspace of a name stands behind workspaces of other names. -/
theorem find?_eq_some {front back : List Entry} {e : Entry} (hw : c.workspaces = front ++ e :: back)
    (he : e.name = name) (hf : ∀ d ∈ front, d.name ≠ name) : c.find? name = some e := by
  refine List.find?_eq_some_iff_append.mpr ⟨beq_iff_eq.mpr he, front, back, hw, ?_⟩
  intro d hd
  rw [beq_eq_false_iff_ne.mpr (hf d hd)]
  rfl

/-- Workspaces of other names do not matter. -/
theorem level?_congr (port : Port)
    (h : c'.workspaces.filter (·.name == name) = c.workspaces.filter (·.name == name)) :
    c'.level? name port = c.level? name port := by
  unfold level? find?
  rw [← List.head?_filter, ← List.head?_filter, h]

/-- An added workspace brings its levels with it. -/
theorem level?_added (name : String) (port : Port) (hw : ∀ d ∈ c.workspaces, d.name ≠ entry.name) :
    level? { c with workspaces := c.workspaces ++ [entry] } name port =
      if entry.name = name then entry.privacy.get? port else c.level? name port := by
  by_cases hname : entry.name = name
  · rw [if_pos hname]
    subst hname
    unfold level?
    rw [find?_eq_some rfl rfl hw]
    rfl
  · rw [if_neg hname]
    apply level?_congr
    have hother : [entry].filter (·.name == name) = [] :=
      List.filter_cons_of_neg (fun h => hname (beq_iff_eq.mp h))
    rw [List.filter_append, hother, List.append_nil]

/-- No level is left of a workspace that was removed. -/
theorem level?_removed (removed name : String) (port : Port) :
    level? { c with workspaces := c.workspaces.filter fun d => d.name ≠ removed } name port =
      if removed = name then none else c.level? name port := by
  by_cases hname : removed = name
  · rw [if_pos hname]
    subst hname
    unfold level?
    rw [find?_eq_none]
    · rfl
    · intro d hd
      exact of_decide_eq_true (List.mem_filter.mp hd).2
  · rw [if_neg hname]
    apply level?_congr
    rw [List.filter_filter]
    apply List.filter_congr
    intro d _
    by_cases hd : d.name = name
    · rw [decide_eq_true (show d.name ≠ removed from fun h => hname (h.symm.trans hd)), Bool.and_true]
    · rw [beq_eq_false_iff_ne.mpr hd, Bool.false_and]

/-- The first workspace of a name has the levels that it was given. -/
theorem level?_levelSet {front back : List Entry} {levels : PortLevels}
    (hw : c.workspaces = front ++ entry :: back) (hf : ∀ d ∈ front, d.name ≠ entry.name) (name : String)
    (port : Port) :
    level? { c with workspaces := front ++ { entry with privacy := levels } :: back } name port =
      if entry.name = name then levels.get? port else c.level? name port := by
  by_cases hname : entry.name = name
  · rw [if_pos hname]
    subst hname
    have hfirst : find? { c with workspaces := front ++ { entry with privacy := levels } :: back } entry.name =
        some { entry with privacy := levels } := find?_eq_some rfl rfl hf
    unfold level?
    rw [hfirst]
    rfl
  · rw [if_neg hname]
    apply level?_congr
    have hother : (entry.name == name) = false := beq_eq_false_iff_ne.mpr hname
    rw [hw, List.filter_append, List.filter_append, List.filter_cons, List.filter_cons, hother]
    rfl

/-- **A request** changes the levels as it says when it succeeds, and no other request does. -/
theorem level?_answers {request : StoreRequest} {answer : StoreAnswer} (h : c.Answers request answer c')
    (name : String) (port : Port) :
    c'.level? name port = ((Event.request request answer).leaves name port).getD (c.level? name port) := by
  cases h with
  | load | workspaces | found | notFound | duplicate | notRemoved | levelNotSet => rfl
  | domainSet | addressSet => rfl
  | @added entry hw =>
    rw [level?_added name port hw, Event.leaves]
    split <;> rfl
  | @removed removed hw =>
    rw [level?_removed removed name port, Event.leaves]
    split <;> rfl
  | @levelSet _ level port' front back entry levels hw he hf hl ho =>
    subst he
    rw [level?_levelSet hw hf name port, Event.leaves]
    by_cases hname : entry.name = name
    · rw [if_pos hname]
      by_cases hport : port' = port
      · rw [if_pos ⟨hname, hport⟩, ← hport]
        exact hl
      · subst hname
        rw [if_neg (fun h => hport h.2), ho port (Ne.symm hport)]
        show _ = (c.find? entry.name).bind _
        rw [find?_eq_some hw rfl hf]
        rfl
    · rw [if_neg hname, if_neg (fun h => hname h.1)]
      rfl

/-- The levels that the first event leaves are those that the others start from. -/
theorem levelAfter_cons {event : Event}
    (h : c'.level? name port = (event.leaves name port).getD (c.level? name port)) (events : List Event) :
    c'.levelAfter events name port = c.levelAfter (event :: events) name port := by
  unfold levelAfter
  rw [h, List.reverse_cons, List.findSome?_append]
  cases events.reverse.findSome? (Event.leaves name port) with
  | none => rw [Option.none_or, List.findSome?_singleton]; rfl
  | some stored => rfl

end Config

/-! ## Updates -/

namespace Session

variable {s : Session} {n : Int} {level : String} {c c' : Config} {result : Except MachineError Unit}

/-- **How an update ends** that is asked of a session. An update that fails changes nothing at all; in
    particular, a number that is too large is not taken for that of another port. -/
structure Updates (s : Session) (n : Int) (level : String) (c : Config) (result : Except MachineError Unit)
    (c' : Config) : Prop where
  /-- It succeeds for the number of a port and a level that is not empty, if there is such a workspace. -/
  succeeds_iff : result = .ok () ↔
    (0 ≤ n ∧ n ≤ 65535) ∧ level ≠ "" ∧ ∃ d ∈ c.workspaces, d.name = s.workspace.name
  /-- Then the level of the port of that very number is set in the workspace, and nothing else changes. -/
  changes : result = .ok () →
    ∃ port : Port, (port.toNat : Int) = n ∧ c.Answers (.setLevel s.workspace.name port level) (.done (.ok ())) c'
  keeps : result ≠ .ok () → c' = c

/-- An update that cannot be made is rejected. -/
theorem Updates.rejected {e : MachineError}
    (h : ¬ ((0 ≤ n ∧ n ≤ 65535) ∧ level ≠ "" ∧ ∃ d ∈ c.workspaces, d.name = s.workspace.name)) :
    s.Updates n level c (.error e) c where
  succeeds_iff := iff_of_false (by simp) h
  changes := fun hok => absurd hok (by simp)
  keeps := fun _ => rfl

/-- An update that is made is the request for it, made of the store. -/
theorem Updates.made {port : Port} (hlevel : level ≠ "")
    (h : c.Answers (.setLevel s.workspace.name port level) (.done (.ok ())) c') :
    s.Updates port.toNat level c (.ok ()) c' where
  succeeds_iff := by
    have hlt : port.toNat < 65536 := port.toNat_lt
    refine iff_of_true rfl ⟨by omega, hlevel, ?_⟩
    cases h with
    | levelSet hw he _ _ _ => exact ⟨_, hw ▸ List.mem_append_right _ List.mem_cons_self, he⟩
  changes := fun _ => ⟨port, rfl, h⟩
  keeps := fun hfails => absurd rfl hfails

variable {store : Store} {m : Machine}

/-- **An update** ends so, as long as the file system does not refuse to keep it. -/
theorem setLevel_updates (s : Session) (n : Int) (level : String) (hload : store.load m.files = .ok c)
    (hkept : ∀ e, (s.setLevel store n level m).1 = .error e → e.isRefusal = false) :
    ∃ c', store.load (s.setLevel store n level m).2.files = .ok c' ∧
      s.Updates n level c (s.setLevel store n level m).1 c' := by
  unfold setLevel at hkept ⊢
  cases hport : Port.ofInt? n with
  | none =>
    have hrange := Port.ofInt?_eq_none_iff.mp hport
    refine ⟨c, hload, .rejected ?_⟩
    rintro ⟨hn, -, -⟩
    omega
  | some port =>
    obtain rfl := Port.ofInt?_eq_some_iff.mp hport
    rw [hport] at hkept
    dsimp only at hkept ⊢
    by_cases hempty : level = ""
    · rw [if_pos hempty]
      exact ⟨c, hload, .rejected fun h => h.2.1 hempty⟩
    · rw [if_neg hempty] at hkept ⊢
      have hchange :
          StoreAnswer.isRefusal (.done (store.setLevel s.workspace.name port level m.files).1) = false →
          ∃ c', c.Answers (.setLevel s.workspace.name port level)
              (.done (store.setLevel s.workspace.name port level m.files).1) c' ∧
            store.load (store.setLevel s.workspace.name port level m.files).2 = .ok c' :=
        Store.change_answers hload (Config.setLevel_does s.workspace.name port level)
      revert hkept hchange
      rcases store.setLevel s.workspace.name port level m.files with ⟨e | _, files⟩
      · intro hkept hchange
        obtain ⟨c', ha, hload'⟩ := hchange (hkept _ rfl)
        cases ha with
        | levelNotSet hw => exact ⟨c, hload', .rejected fun ⟨_, _, d, hd, he⟩ => hw d hd he⟩
      · intro _ hchange
        obtain ⟨c', ha, hload'⟩ := hchange rfl
        exact ⟨c', hload', .made hempty ha⟩

/-- **An update** changes the levels as its event says. -/
theorem Updates.level? (h : s.Updates n level c result c') (name : String) (port : Port) :
    c'.level? name port = ((Event.update s n level result).leaves name port).getD (c.level? name port) := by
  cases result with
  | error e =>
    rw [h.keeps (by simp)]
    rfl
  | ok _ =>
    obtain ⟨port', rfl, ha⟩ := h.changes rfl
    simp only [Config.level?_answers ha, Event.leaves, Int.ofNat_inj, UInt16.toNat_inj]

/-- The ports that are listed have the levels of the configuration that is loaded. -/
theorem sharedPorts_eq (s : Session) {listeners : List Listener} (hload : store.load m.files = .ok c)
    (hscan : m.listening = .ok listeners) :
    s.sharedPorts store m =
      .ok (listeners.map fun l => ⟨l.port, (c.level? s.workspace.name l.port).getD defaultLevel⟩) := by
  have hlevel (port : Port) :
      ((Option.map Entry.privacy (c.find? s.workspace.name)).getD .empty).get? port =
        c.level? s.workspace.name port := by
    unfold Config.level?
    cases c.find? s.workspace.name <;> rfl
  unfold sharedPorts Store.find
  rw [hscan, hload]
  exact congrArg Except.ok (List.map_congr_left fun l _ => by rw [hlevel])

end Session

/-! ## Runs -/

namespace Machine

variable {store : Store} {m : Machine} {c : Config}

/-- Do what is asked for. -/
def act (store : Store) (m : Machine) : Act → Event × Machine
  | .request request =>
    let (answer, files) := store.perform request m.files
    (.request request answer, { m with files })
  | .update session n level => (session.setLevel store n level m).map (.update session n level) id

/-- Do one thing after the other. -/
def run (store : Store) (m : Machine) : List Act → List Event × Machine
  | [] => ([], m)
  | a :: acts =>
    let (event, m) := m.act store a
    let (events, m) := m.run store acts
    (event :: events, m)

/-- **One act** changes the levels as its event says. -/
theorem act_levels (a : Act) (hload : store.load m.files = .ok c) (hkept : (m.act store a).1.isRefusal = false) :
    ∃ c', store.load (m.act store a).2.files = .ok c' ∧ ∀ name port,
      c'.level? name port = ((m.act store a).1.leaves name port).getD (c.level? name port) := by
  cases a with
  | request request =>
    obtain ⟨c', ha, hload'⟩ := Store.perform_answers request hload hkept
    exact ⟨c', hload', Config.level?_answers ha⟩
  | update session n level =>
    obtain ⟨c', hload', h⟩ := session.setLevel_updates n level hload (Event.not_isRefusal_of_update hkept)
    exact ⟨c', hload', h.level?⟩

/-- **All acts** leave the levels that the last of their events leave. -/
theorem run_levels (acts : List Act) (hload : store.load m.files = .ok c)
    (hkept : ∀ event ∈ (m.run store acts).1, event.isRefusal = false) :
    ∃ c', store.load (m.run store acts).2.files = .ok c' ∧ ∀ name port,
      c'.level? name port = c.levelAfter (m.run store acts).1 name port := by
  induction acts generalizing m c with
  | nil => exact ⟨c, hload, fun _ _ => rfl⟩
  | cons a acts ih =>
    obtain ⟨c₁, hload₁, hfirst⟩ := act_levels a hload (hkept _ List.mem_cons_self)
    obtain ⟨c₂, hload₂, hrest⟩ := ih hload₁ (fun event h => hkept event (List.mem_cons_of_mem _ h))
    refine ⟨c₂, hload₂, ?_⟩
    intro name port
    rw [hrest name port]
    exact Config.levelAfter_cons (hfirst name port) _

/-- **A level is the one that was written last.** From a file that is missing or holds a configuration, after
    any acts that the file system does not refuse to keep, a session lists one port for each listener, in the
    order of the scan. Its level is what the last event leaves that has to do with it, no matter what the
    session remembers of its workspace; and an update changes the configuration as it should. -/
theorem levels_last_written (store : Store) (m : Machine) (c : Config) (acts : List Act)
    (hload : store.load m.files = .ok c) (hkept : ∀ event ∈ (m.run store acts).1, event.isRefusal = false) :
    (∀ (s : Session) (listeners : List Listener),
      s.sharedPorts store { (m.run store acts).2 with listening := .ok listeners } =
        .ok (listeners.map fun l =>
          ⟨l.port, (c.levelAfter (m.run store acts).1 s.workspace.name l.port).getD defaultLevel⟩)) ∧
    ∃ c', store.load (m.run store acts).2.files = .ok c' ∧
      ∀ (s : Session) (n : Int) (level : String),
        (∀ e, (s.setLevel store n level (m.run store acts).2).1 = .error e → e.isRefusal = false) →
        ∃ c'', store.load (s.setLevel store n level (m.run store acts).2).2.files = .ok c'' ∧
          s.Updates n level c' (s.setLevel store n level (m.run store acts).2).1 c'' := by
  obtain ⟨c', hload', hlevels⟩ := run_levels acts hload hkept
  constructor
  · intro s listeners
    have hlisted : s.sharedPorts store { (m.run store acts).2 with listening := .ok listeners } = _ :=
      s.sharedPorts_eq hload' rfl
    simp only [hlisted, hlevels]
  · refine ⟨c', hload', ?_⟩
    intro s n level hrefusal
    exact s.setLevel_updates n level hload' hrefusal

/-- Two workspaces of one name, written into a file by hand. -/
def twice : Config :=
  { workspaces := [{ name := "a", root := "/a", privacy := .ofList [(80, "org")] }, { name := "a", root := "/b" }] }

/-- A machine with that file, which listens on three ports. -/
def twofold : Machine :=
  { files := { entries := [("c.json", .file twice.render)] }
    listening := .ok [⟨443, "*"⟩, ⟨22, "*"⟩, ⟨80, "*"⟩] }

/-- A session outlives its workspace, and another takes its place. -/
def outlived : List Act :=
  [.update ⟨{ name := "a", root := "/a" }⟩ 80 "public", .request (.remove "a"),
    .request (.add { name := "a", root := "/c", privacy := .ofList [(443, "org")] }),
    .update ⟨{ name := "a", root := "/a" }⟩ 22 "public", .update ⟨{ name := "a", root := "/c" }⟩ 65558 "org"]

/-- A session that has outlived its workspace lists the levels of the one that took its place. -/
theorem levels_last_written_outlived :
    Store.load ⟨⟨["c.json"]⟩⟩ twofold.files = .ok twice ∧
    (∀ event ∈ (twofold.run ⟨⟨["c.json"]⟩⟩ outlived).1, event.isRefusal = false) ∧
    Session.sharedPorts ⟨{ name := "a", root := "/a" }⟩ ⟨⟨["c.json"]⟩⟩
        { (twofold.run ⟨⟨["c.json"]⟩⟩ outlived).2 with listening := twofold.listening } =
      .ok [⟨443, "org"⟩, ⟨22, "public"⟩, ⟨80, "private"⟩] := by
  have hload : Store.load ⟨⟨["c.json"]⟩⟩ twofold.files = .ok twice := Store.load_of_find (by rfl)
  have hkept : ∀ event ∈ (twofold.run ⟨⟨["c.json"]⟩⟩ outlived).1, event.isRefusal = false := by
    decide +kernel
  refine ⟨hload, hkept, ?_⟩
  have hlisted := (levels_last_written ⟨⟨["c.json"]⟩⟩ twofold twice outlived hload hkept).1
  refine (hlisted _ _).trans (congrArg Except.ok ?_)
  decide +kernel

end Machine

end SharedPorts
