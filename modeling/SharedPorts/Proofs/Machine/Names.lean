import SharedPorts.Proofs.Config.Safety
import SharedPorts.Proofs.Machine.LastWrite
import Mathlib.Data.List.Nodup

/-!
# `SharedPorts.Proofs.Machine.Names` — no workspace gets the name of another

Every search for a workspace takes the first of its name, so that a second one would never be seen. A
workspace is added only under a new name, and nothing else that a store or a session does makes more
workspaces of a name than there were.

Two things go round this. Saving writes the configuration that it is given, whatever its names are. And a
path that leads back out of a directory which is not there holds nothing at first; a change that the file
system refuses may leave that directory behind, and then the path leads to whatever stood behind it.

## Contents
- **Names.** `Config.named` and `Config.Distinct`; what each request does to the names.
- **Acts.** `StoreAct`, an act or a saving, and `StoreEvent`; `StoreEvent.Counts`, what an event may do to the
  number of workspaces of a name.
- **Refusals.** `Machine.Astray`; a refusal that does not lead astray changes nothing.
- **Runs.** `Machine.perform_counts`, `Machine.performAll_distinct`, and `names_stay_unique`.
-/

namespace SharedPorts

/-! ## Names -/

namespace Config

variable {c c' : Config} {name : String} {request : StoreRequest} {answer : StoreAnswer}

/-- The names of the workspaces, in their order. -/
def names (c : Config) : List String := c.workspaces.map (·.name)

/-- How many workspaces have a name. -/
def named (c : Config) (name : String) : Nat := c.names.count name

/-- No two workspaces have the same name. -/
def Distinct (c : Config) : Prop := c.names.Nodup

theorem distinct_iff : c.Distinct ↔ ∀ name, c.named name ≤ 1 := List.nodup_iff_count_le_one

theorem named_eq_zero (h : ∀ d ∈ c.workspaces, d.name ≠ name) : c.named name = 0 := by
  apply List.count_eq_zero.mpr
  intro hmem
  obtain ⟨d, hd, heq⟩ := List.mem_map.mp hmem
  exact h d hd heq

/-- The names of the workspaces that are left. -/
theorem named_removed (removed name : String) :
    named { c with workspaces := c.workspaces.filter fun d => d.name ≠ removed } name ≤ c.named name := by
  have hsub : (c.workspaces.filter fun d => d.name ≠ removed).Sublist c.workspaces := List.filter_sublist
  exact (hsub.map (·.name)).count_le name

/-- A request that adds no workspace makes no more workspaces of any name. -/
theorem named_le_of_answers (h : c.Answers request answer c')
    (hnot : ∀ entry, request = .add entry → answer ≠ .done (.ok ())) (name : String) :
    c'.named name ≤ c.named name := by
  cases h with
  | load | workspaces | found | notFound | duplicate | notRemoved | levelNotSet => exact Nat.le_refl _
  | domainSet | addressSet => exact Nat.le_refl _
  | added hw => exact absurd rfl (hnot _ rfl)
  | removed hw => exact named_removed _ name
  | @levelSet _ level port front back e levels hw he hf hl ho =>
    have hsame : names { c with workspaces := front ++ { e with privacy := levels } :: back } = c.names := by
      unfold names
      rw [hw, List.map_append, List.map_append]
      rfl
    unfold named
    rw [hsame]

/-- A workspace that is added is the only one of its name. -/
theorem named_of_added {entry : Entry} (h : c.Answers (.add entry) (.done (.ok ())) c') :
    c.named entry.name = 0 ∧ c'.named entry.name = 1 ∧
      ∀ name, name ≠ entry.name → c'.named name = c.named name := by
  cases h with
  | added hw =>
    have hzero := named_eq_zero hw
    have hnames (name : String) : named { c with workspaces := c.workspaces ++ [entry] } name =
        c.named name + [entry.name].count name := by
      unfold named names
      rw [List.map_append, List.count_append]
      rfl
    refine ⟨hzero, ?_, ?_⟩
    · rw [hnames, hzero, List.count_singleton_self]
    · intro name hne
      have hother : [entry.name].count name = 0 := by
        apply List.count_eq_zero.mpr
        intro hmem
        exact hne (List.mem_singleton.mp hmem)
      rw [hnames, hother]
      rfl

/-- No workspace of a name is left that was removed. -/
theorem named_of_removed (h : c.Answers (.remove name) (.done (.ok ())) c') : c'.named name = 0 := by
  cases h with
  | removed hw =>
    apply named_eq_zero
    intro d hd
    exact of_decide_eq_true (List.mem_filter.mp hd).2

end Config

/-! ## Acts -/

/-- What is done to the file of a store: an act, or the saving of a configuration as it is given. -/
inductive StoreAct
  | act (act : Act)
  | save (config : Config)

/-- What was done, and what came of it. -/
inductive StoreEvent
  | act (event : Event)
  | saved (config : Config) (result : Except ConfigError Unit)

namespace StoreEvent

variable {c c' : Config}

/-- The file system has refused to keep what was done. -/
def isRefusal : StoreEvent → Bool
  | .act event => event.isRefusal
  | .saved _ (.error e) => e.isRefusal
  | .saved _ (.ok ()) => false

/-- A workspace was added. -/
def added (entry : Entry) : StoreEvent := .act (.request (.add entry) (.done (.ok ())))

/-- The workspaces of a name were removed. -/
def removed (name : String) : StoreEvent := .act (.request (.remove name) (.done (.ok ())))

/-- **What an event may do to the number of workspaces of a name.** Nothing but the adding of a workspace and
    the saving of a given configuration may leave more of them than there were. -/
structure Counts (event : StoreEvent) (c c' : Config) : Prop where
  added : ∀ entry, event = .added entry → c.named entry.name = 0 ∧ c'.named entry.name = 1
  removed : ∀ name, event = .removed name → c'.named name = 0
  saved : ∀ d, event = .saved d (.ok ()) → c' = d
  others : ∀ name, (∀ entry, event = .added entry → entry.name ≠ name) → (∀ d, event ≠ .saved d (.ok ())) →
    c'.named name ≤ c.named name

/-- A refusal is none of these events, and the names may stay as they are. -/
theorem counts_of_refusal {event : StoreEvent} (h : event.isRefusal = true) : event.Counts c c where
  added := by
    rintro entry rfl
    exact absurd h nofun
  removed := by
    rintro name rfl
    exact absurd h nofun
  saved := by
    rintro d rfl
    exact absurd h nofun
  others _ _ _ := Nat.le_refl _

/-- **A request** does no more than its event says. -/
theorem counts_of_answers {request : StoreRequest} {answer : StoreAnswer} (h : c.Answers request answer c') :
    (StoreEvent.act (.request request answer)).Counts c c' where
  added := by
    rintro entry heq
    obtain ⟨rfl, rfl⟩ := Event.request.inj (StoreEvent.act.inj heq)
    obtain ⟨hzero, hone, -⟩ := Config.named_of_added h
    exact ⟨hzero, hone⟩
  removed := by
    rintro name heq
    obtain ⟨rfl, rfl⟩ := Event.request.inj (StoreEvent.act.inj heq)
    exact Config.named_of_removed h
  saved _ heq := absurd heq nofun
  others := by
    intro name hnot _
    by_cases hadd : ∃ entry, request = .add entry ∧ answer = .done (.ok ())
    · obtain ⟨entry, rfl, rfl⟩ := hadd
      obtain ⟨-, -, hothers⟩ := Config.named_of_added h
      exact Nat.le_of_eq (hothers name (Ne.symm (hnot entry rfl)))
    · apply Config.named_le_of_answers h
      intro entry hrequest hanswer
      exact hadd ⟨entry, hrequest, hanswer⟩

/-- **An update** does nothing to the names. -/
theorem counts_of_updates {session : Session} {n : Int} {level : String} {result : Except MachineError Unit}
    (h : session.Updates n level c result c') :
    (StoreEvent.act (.update session n level result)).Counts c c' where
  added _ heq := absurd heq nofun
  removed _ heq := absurd heq nofun
  saved _ heq := absurd heq nofun
  others := by
    intro name _ _
    cases result with
    | error e => rw [h.keeps nofun]
    | ok _ =>
      obtain ⟨port, -, hanswer⟩ := h.changes rfl
      exact Config.named_le_of_answers hanswer nofun name

/-- What a saving leaves is what it was given. -/
theorem counts_of_saved (c c' : Config) : (StoreEvent.saved c' (.ok ())).Counts c c' where
  added _ heq := absurd heq nofun
  removed _ heq := absurd heq nofun
  saved _ heq := (StoreEvent.saved.inj heq).1
  others _ _ hnot := absurd rfl (hnot c')

/-- **Names stay distinct**, unless a configuration was saved whose names are not. -/
theorem Counts.distinct {event : StoreEvent} (h : event.Counts c c') (hc : c.Distinct)
    (hsaved : ∀ d, event = .saved d (.ok ()) → d.Distinct) : c'.Distinct := by
  by_cases hsave : ∃ d, event = .saved d (.ok ())
  · obtain ⟨d, hd⟩ := hsave
    rw [h.saved d hd]
    exact hsaved d hd
  · rw [Config.distinct_iff] at hc ⊢
    intro name
    by_cases hadd : ∃ entry, event = .added entry ∧ entry.name = name
    · obtain ⟨entry, hentry, rfl⟩ := hadd
      exact Nat.le_of_eq (h.added entry hentry).2
    · have hadded : ∀ entry, event = .added entry → entry.name ≠ name :=
        fun entry hentry heq => hadd ⟨entry, hentry, heq⟩
      exact Nat.le_trans (h.others name hadded fun d hd => hsave ⟨d, hd⟩) (hc name)

end StoreEvent

namespace Machine

variable {store : Store} {m : Machine} {c : Config}

/-- Do what is to be done. -/
def perform (store : Store) (m : Machine) : StoreAct → StoreEvent × Machine
  | .act a => (m.act store a).map .act id
  | .save c =>
    let (result, files) := store.save c m.files
    (.saved c result, { m with files })

/-- Do one thing after the other. -/
def performAll (store : Store) (m : Machine) : List StoreAct → List StoreEvent × Machine
  | [] => ([], m)
  | a :: acts =>
    let (event, m) := m.perform store a
    let (events, m) := m.performAll store acts
    (event :: events, m)

/-! ## Refusals -/

/-- **An act leads astray**: it is refused, and the path, which held nothing, leads back out of a directory
    that was not there. -/
structure Astray (store : Store) (m : Machine) (a : StoreAct) : Prop where
  refused : (m.perform store a).1.isRefusal = true
  missing : m.files.holds? store.path = none
  back : m.files.LeadsBack store.path

/-- No act of a list leads astray, where those before it have come to. -/
def Straight (store : Store) (m : Machine) : List StoreAct → Prop
  | [] => True
  | a :: acts => ¬ m.Astray store a ∧ (m.perform store a).2.Straight store acts

/-- An update that fails does no damage. -/
theorem setLevel_undamaged {session : Session} {n : Int} {level : String} {e : MachineError}
    (h : (session.setLevel store n level m).1 = .error e) :
    store.Undamaged m.files (session.setLevel store n level m).2.files := by
  unfold Session.setLevel at h ⊢
  cases hport : Port.ofInt? n with
  | none => exact .refl store m.files
  | some port =>
    rw [hport] at h
    dsimp only at h ⊢
    by_cases hempty : level = ""
    · rw [if_pos hempty]
      exact .refl store m.files
    · rw [if_neg hempty] at h ⊢
      have hmutates : store.Mutates (.setLevel session.workspace.name port level) m.files
          (store.setLevel session.workspace.name port level m.files).1
          (store.setLevel session.workspace.name port level m.files).2 :=
        Store.change_mutates (Config.setLevel_does session.workspace.name port level) m.files
      revert h hmutates
      rcases store.setLevel session.workspace.name port level m.files with ⟨e' | _, files⟩
      · intro _ hmutates
        exact hmutates.undamaged
      · intro h _
        exact absurd h nofun

/-- **A refusal** does no damage. -/
theorem undamaged_of_refused {a : StoreAct} (h : (m.perform store a).1.isRefusal = true) :
    store.Undamaged m.files (m.perform store a).2.files := by
  cases a with
  | act a =>
    cases a with
    | request request =>
      have hrefusal : (store.perform request m.files).1.isRefusal = true := h
      obtain ⟨e, he⟩ := StoreAnswer.eq_of_isRefusal hrefusal
      exact (store.perform_mutates m.files he).undamaged
    | update session n level =>
      have hrefusal : (Event.update session n level (session.setLevel store n level m).1).isRefusal = true := h
      cases hresult : (session.setLevel store n level m).1 with
      | error e => exact setLevel_undamaged hresult
      | ok _ =>
        rw [hresult] at hrefusal
        exact absurd hrefusal nofun
  | save d =>
    have hrefusal : (StoreEvent.saved d (store.save d m.files).1).isRefusal = true := h
    show store.Undamaged m.files (store.save d m.files).2
    cases hsave : store.save d m.files with
    | mk result fs' =>
      rw [hsave] at hrefusal
      cases result with
      | error e => exact Store.save_undamaged hsave
      | ok _ => exact absurd hrefusal nofun

/-- **A refusal that does not lead astray** changes nothing that is loaded. -/
theorem load_of_refused {a : StoreAct} (h : (m.perform store a).1.isRefusal = true)
    (hastray : ¬ m.Astray store a) : store.load (m.perform store a).2.files = store.load m.files := by
  rcases (undamaged_of_refused h).held with hsame | ⟨hmissing, hback⟩
  · exact Store.load_congr hsame
  · exact absurd ⟨h, hmissing, hback⟩ hastray

/-! ## Runs -/

/-- What was saved was to be saved. -/
theorem save_mem_of_saved {acts : List StoreAct} {d : Config} {result : Except ConfigError Unit}
    (h : .saved d result ∈ (m.performAll store acts).1) : .save d ∈ acts := by
  induction acts generalizing m with
  | nil => exact absurd h List.not_mem_nil
  | cons a acts ih =>
    rcases List.mem_cons.mp h with hfirst | hrest
    · cases a with
      | act a => exact absurd hfirst nofun
      | save d' =>
        obtain ⟨rfl, -⟩ := StoreEvent.saved.inj hfirst
        exact List.mem_cons_self
    · exact List.mem_cons_of_mem _ (ih hrest)

/-- **One act** does no more to the names than its event says, from any file that can be loaded. -/
theorem perform_counts {a : StoreAct} (hload : store.load m.files = .ok c) (hastray : ¬ m.Astray store a) :
    ∃ c', store.load (m.perform store a).2.files = .ok c' ∧ (m.perform store a).1.Counts c c' := by
  cases hrefusal : (m.perform store a).1.isRefusal with
  | true => exact ⟨c, (load_of_refused hrefusal hastray).trans hload, StoreEvent.counts_of_refusal hrefusal⟩
  | false =>
    cases a with
    | act a =>
      cases a with
      | request request =>
        obtain ⟨c', ha, hload'⟩ := Store.perform_answers request hload hrefusal
        exact ⟨c', hload', StoreEvent.counts_of_answers ha⟩
      | update session n level =>
        obtain ⟨c', hload', h⟩ :=
          session.setLevel_updates n level hload (Event.not_isRefusal_of_update hrefusal)
        exact ⟨c', hload', StoreEvent.counts_of_updates h⟩
    | save d =>
      have hsaved := store.load_of_save d m.files
      have hnot : (StoreEvent.saved d (store.save d m.files).1).isRefusal = false := hrefusal
      show ∃ c', store.load (store.save d m.files).2 = .ok c' ∧
        (StoreEvent.saved d (store.save d m.files).1).Counts c c'
      revert hsaved hnot
      rcases store.save d m.files with ⟨e | _, fs'⟩
      · intro hsaved hnot
        exact absurd (hsaved.symm.trans hnot) nofun
      · intro hsaved _
        exact ⟨d, hsaved, StoreEvent.counts_of_saved c d⟩

/-- **All acts** leave names distinct that were so, unless a configuration was saved whose names are not. -/
theorem performAll_distinct (acts : List StoreAct) (hload : store.load m.files = .ok c)
    (hstraight : m.Straight store acts) (hc : c.Distinct)
    (hsaved : ∀ d, .saved d (.ok ()) ∈ (m.performAll store acts).1 → d.Distinct) :
    ∃ c', store.load (m.performAll store acts).2.files = .ok c' ∧ c'.Distinct := by
  induction acts generalizing m c with
  | nil => exact ⟨c, hload, hc⟩
  | cons a acts ih =>
    obtain ⟨hastray, hrest⟩ := hstraight
    obtain ⟨c₁, hload₁, hcounts⟩ := perform_counts hload hastray
    have hc₁ : c₁.Distinct := hcounts.distinct hc fun d hd => hsaved d (hd ▸ List.mem_cons_self)
    exact ih hload₁ hrest hc₁ fun d hd => hsaved d (List.mem_cons_of_mem _ hd)

/-- A path without two dots never leads astray. -/
theorem straight_of_no_dots (h : ".." ∉ store.path.pieces) (acts : List StoreAct) :
    m.Straight store acts := by
  induction acts generalizing m with
  | nil => trivial
  | cons a acts ih =>
    refine ⟨?_, ih⟩
    rintro ⟨-, -, front, back, hpieces, -⟩
    apply h
    rw [hpieces]
    exact List.mem_append_right _ List.mem_cons_self

/-- **Names stay unique.** From a file that is missing or holds workspaces of distinct names, any acts leave
    distinct names, if none of them leads astray and no configuration is saved whose names are not distinct.
    From any file that can be loaded, one act does no more to the names than its event says. On a path without
    two dots no act leads astray. -/
theorem names_stay_unique (store : Store) (m : Machine) (c : Config) (hload : store.load m.files = .ok c) :
    (∀ acts, m.Straight store acts → c.Distinct →
      (∀ d, .saved d (.ok ()) ∈ (m.performAll store acts).1 → d.Distinct) →
      ∃ c', store.load (m.performAll store acts).2.files = .ok c' ∧ c'.Distinct) ∧
    (∀ a, ¬ m.Astray store a →
      ∃ c', store.load (m.perform store a).2.files = .ok c' ∧ (m.perform store a).1.Counts c c') ∧
    (".." ∉ store.path.pieces → ∀ acts, m.Straight store acts) := by
  refine ⟨?_, ?_, straight_of_no_dots⟩
  · intro acts hstraight hc hsaved
    exact performAll_distinct acts hload hstraight hc hsaved
  · intro a hastray
    exact perform_counts hload hastray

/-- A workspace is added twice, and gets a level in between. -/
def twiceAdded : List StoreAct :=
  [.act (.request (.add { name := "a", root := "/a" })), .act (.update ⟨{ name := "a", root := "/a" }⟩ 80 "org"),
    .act (.request (.add { name := "a", root := "/b" }))]

/-- The second one is not added. -/
theorem names_stay_unique_twice_added :
    Store.load ⟨⟨["c.json"]⟩⟩ {} = .ok {} ∧
    ∃ c', Store.load ⟨⟨["c.json"]⟩⟩ (performAll ⟨⟨["c.json"]⟩⟩ { files := {} } twiceAdded).2.files = .ok c' ∧
      c'.Distinct := by
  have hload : Store.load ⟨⟨["c.json"]⟩⟩ {} = .ok {} := by rfl
  refine ⟨hload, ?_⟩
  obtain ⟨hrun, -, hdots⟩ := names_stay_unique ⟨⟨["c.json"]⟩⟩ { files := {} } {} hload
  apply hrun twiceAdded (hdots (by decide) twiceAdded) List.nodup_nil
  intro d hd
  exact absurd (save_mem_of_saved hd) (by simp [twiceAdded])

/-- The file of two workspaces of one name stands behind a path, and a directory in the way of the temporary
    file. -/
def crossed : Machine :=
  { files := { entries := [("c.json", .file twice.render), ("c.json.tmp", .directory [])] } }

/-- **Names may repeat** after an act that leads astray, and after the saving of a configuration. -/
theorem names_repeat :
    (¬ ∀ (store : Store) (m : Machine) (a : Act) (c c' : Config), store.load m.files = .ok c →
      store.load (m.act store a).2.files = .ok c' → c.Distinct → c'.Distinct) ∧
    ¬ ∀ (store : Store) (m : Machine) (d c c' : Config), store.load m.files = .ok c →
      store.load (m.perform store (.save d)).2.files = .ok c' → c.Distinct → c'.Distinct := by
  have htwice : ¬ twice.names.Nodup := by decide
  constructor
  · intro h
    have hbefore : Store.crossing.load crossed.files = .ok {} := by rfl
    have hafter : Store.crossing.load (crossed.act Store.crossing (.request (.setPreviewDomain "d"))).2.files =
        .ok twice := Store.load_of_find (by rfl)
    exact htwice (h _ _ _ _ _ hbefore hafter List.nodup_nil)
  · intro h
    have hbefore : Store.load ⟨⟨["c.json"]⟩⟩ {} = .ok {} := by rfl
    have hafter : Store.load ⟨⟨["c.json"]⟩⟩ (perform ⟨⟨["c.json"]⟩⟩ { files := {} } (.save twice)).2.files =
        .ok twice := Store.load_of_find (by rfl)
    exact htwice (h ⟨⟨["c.json"]⟩⟩ { files := {} } twice _ _ hbefore hafter List.nodup_nil)

end Machine

end SharedPorts
