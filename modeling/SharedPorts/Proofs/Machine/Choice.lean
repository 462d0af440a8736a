import SharedPorts.Proofs.Machine.Names

/-!
# `SharedPorts.Proofs.Machine.Choice` — a workspace is chosen by its name

To work on a workspace takes several steps: it is chosen by its name, a session is opened on it, its files
are read, its levels are listed and set. Each of them reads the configuration anew and searches it again.
They agree because every search takes the first workspace of the name, even where a file written by hand
holds several of one name.

The empty name is different. It asks for the only workspace, and where there are several it chooses none, be
it that one of them has the empty name. So a workspace can be chosen by its name unless that is empty.

## Contents
- **First workspaces.** `Config.First`, the first workspace of its name among the others.
- **Choices.** `Machine.Chooses`, what comes of a choice, in one case for each reason.
- **Work.** `Machine.WorksOn`, what each step does that works on a workspace; `chosen_is_first`.
- **Stored workspaces.** `stored_can_be_chosen`, and `not_all_chosen`, the workspaces that cannot.
-/

namespace SharedPorts

/-! ## First workspaces -/

namespace Config

variable {c : Config} {front back : List Entry} {d e : Entry} {name : String}

/-- **The first workspace of its name**, among those before it and behind it. -/
structure First (c : Config) (front : List Entry) (e : Entry) (back : List Entry) : Prop where
  split : c.workspaces = front ++ e :: back
  before : ∀ d ∈ front, d.name ≠ e.name

/-- The search finds it. -/
theorem First.find? (h : c.First front e back) : c.find? e.name = some e := find?_eq_some h.split rfl h.before

/-- Every name of a workspace is that of a first one. -/
theorem exists_first (hd : d ∈ c.workspaces) : ∃ front e back, c.First front e back ∧ e.name = d.name := by
  cases hfind : c.find? d.name with
  | none =>
    have hnot := List.find?_eq_none.mp hfind d hd
    exact absurd (beq_self_eq_true d.name) hnot
  | some e =>
    obtain ⟨he, front, back, hw, hf⟩ := List.find?_eq_some_iff_append.mp hfind
    have hname : e.name = d.name := by simpa using he
    refine ⟨front, e, back, ⟨hw, ?_⟩, hname⟩
    intro d' hd' heq
    have hne := hf d' hd'
    simp [heq, hname] at hne

/-- Where names are distinct, every workspace is the first of its name. -/
theorem Distinct.first (hc : c.Distinct) (he : e ∈ c.workspaces) : ∃ front back, c.First front e back := by
  obtain ⟨front, back, hw⟩ := List.append_of_mem he
  refine ⟨front, back, hw, ?_⟩
  intro d hd heq
  have hnames : (front.map (·.name) ++ e.name :: back.map (·.name)).Nodup := by
    have hnodup : c.names.Nodup := hc
    unfold names at hnodup
    rw [hw, List.map_append, List.map_cons] at hnodup
    exact hnodup
  have hmem : e.name ∈ front.map (·.name) := List.mem_map.mpr ⟨d, hd, heq⟩
  exact (List.nodup_append.mp hnames).2.2 _ hmem _ List.mem_cons_self rfl

/-- The configuration in which a workspace, among those before it and behind it, has a level set. -/
def withLevel (c : Config) (front : List Entry) (e : Entry) (back : List Entry) (port : Port)
    (level : String) : Config :=
  { c with workspaces := front ++ { e with privacy := e.privacy.insert port level } :: back }

/-- The first workspace of a name is the one that is changed. -/
theorem changeFirst_append (change : Entry → Entry) (hf : ∀ d ∈ front, d.name ≠ name) (he : e.name = name) :
    changeFirst name change (front ++ e :: back) = some (front ++ change e :: back) := by
  induction front with
  | nil => simp [changeFirst, he]
  | cons d front ih =>
    have hd : d.name ≠ name := hf d List.mem_cons_self
    have hrest := ih fun d' hd' => hf d' (List.mem_cons_of_mem d hd')
    simp [changeFirst, hd, hrest]

/-- And it is the one whose level is set. -/
theorem First.setLevel (h : c.First front e back) (port : Port) (level : String) :
    c.setLevel e.name port level = .ok (c.withLevel front e back port level) := by
  unfold Config.setLevel
  rw [h.split, changeFirst_append _ h.before rfl]
  simp [withLevel]

end Config

namespace Machine

variable {store : Store} {m : Machine} {c : Config} {front back : List Entry} {e : Entry}
  {name w : String} {result : Except (ChoiceError MachineError) String}

/-! ## Choices -/

/-- **What comes of a choice** among workspaces, and why. -/
inductive Chooses (workspaces : List Entry) (name : String) :
    Except (ChoiceError MachineError) String → Prop
  | nothing (hw : workspaces = []) : Chooses workspaces name (.error .noWorkspaces)
  /-- The empty name asks for the only workspace. -/
  | only {e : Entry} (hn : name = "") (hw : workspaces = [e]) : Chooses workspaces name (.ok e.name)
  | several (hn : name = "") (hw : 2 ≤ workspaces.length) :
      Chooses workspaces name (.error (.other (.severalWorkspaces (workspaces.map (·.name)))))
  | named (hn : name ≠ "") (hw : ∃ e ∈ workspaces, e.name = name) : Chooses workspaces name (.ok name)
  | unknown (hn : name ≠ "") (hne : workspaces ≠ []) (hw : ∀ e ∈ workspaces, e.name ≠ name) :
      Chooses workspaces name (.error (.other (.unknownWorkspace name)))

/-- A choice comes to what it should. -/
theorem chooses (workspaces : List Entry) (name : String) :
    Chooses workspaces name (chooseFrom workspaces name) := by
  unfold chooseFrom
  by_cases hnone : workspaces = []
  · simp only [hnone, List.isEmpty_nil, if_true]
    exact .nothing rfl
  · rw [if_neg (by simp [hnone])]
    by_cases hn : name = ""
    · rw [if_pos hn]
      match workspaces with
      | [] => exact absurd rfl hnone
      | [only] => exact .only hn rfl
      | first :: second :: more => exact .several hn (by simp)
    · rw [if_neg hn]
      cases hfind : workspaces.find? (·.name == name) with
      | none =>
        apply Chooses.unknown hn hnone
        intro e he heq
        have hnot := List.find?_eq_none.mp hfind e he
        simp [heq] at hnot
      | some e =>
        have hname : e.name = name := by simpa using List.find?_some hfind
        simp only [hname]
        exact .named hn ⟨e, List.mem_of_find?_eq_some hfind, hname⟩

/-- Nothing can be chosen just if there is nothing to choose from. -/
theorem Chooses.noWorkspaces_iff (h : Chooses c.workspaces name result) :
    result = .error .noWorkspaces ↔ c.workspaces = [] := by
  cases h with
  | nothing hw => simp [hw]
  | only hn hw => simp [hw]
  | several hn hw =>
    apply iff_of_false (by simp)
    intro hnone
    simp [hnone] at hw
  | named hn hw =>
    obtain ⟨e, he, -⟩ := hw
    exact iff_of_false (by simp) (List.ne_nil_of_mem he)
  | unknown hn hne hw => exact iff_of_false (by simp) hne

/-- A name that is not empty chooses a workspace just if it is the name of one, and then that one. -/
theorem Chooses.named_iff (h : Chooses c.workspaces name result) (hn : name ≠ "") :
    result = .ok w ↔ w = name ∧ ∃ e ∈ c.workspaces, e.name = name := by
  cases h with
  | nothing hw => simp [hw]
  | only hn' hw => exact absurd hn' hn
  | several hn' hw => exact absurd hn' hn
  | named _ hw => rw [and_iff_left hw, Except.ok.injEq, eq_comm]
  | unknown _ hne hw =>
    apply iff_of_false (by simp)
    rintro ⟨-, e, he, heq⟩
    exact hw e he heq

/-- The empty name chooses a workspace just if there is one only, and then that one. -/
theorem Chooses.unnamed_iff (h : Chooses c.workspaces name result) (hn : name = "") :
    result = .ok w ↔ ∃ e, c.workspaces = [e] ∧ e.name = w := by
  cases h with
  | nothing hw => simp [hw]
  | only _ hw => simp [hw]
  | several _ hw =>
    apply iff_of_false (by simp)
    rintro ⟨e, he, -⟩
    simp [he] at hw
  | named hn' hw => exact absurd hn hn'
  | unknown hn' hne hw => exact absurd hn hn'

/-- What was chosen is the name of a workspace. -/
theorem Chooses.mem (h : Chooses c.workspaces name (.ok w)) : ∃ d ∈ c.workspaces, d.name = w := by
  by_cases hn : name = ""
  · obtain ⟨d, hd, hname⟩ := (h.unnamed_iff hn).mp rfl
    exact ⟨d, by simp [hd], hname⟩
  · obtain ⟨rfl, hw⟩ := (h.named_iff hn).mp rfl
    exact hw

theorem choose_of_error {e : ConfigError} (hload : store.load m.files = .error e) (name : String) :
    m.choose store name = .error (.other (.config e)) := by
  unfold choose Store.workspaces
  rw [hload]
  rfl

theorem choose_of_load (hload : store.load m.files = .ok c) (name : String) :
    Chooses c.workspaces name (m.choose store name) := by
  unfold choose Store.workspaces
  rw [hload]
  exact chooses c.workspaces name

/-! ## Work -/

/-- **Work on a workspace** is all done on one entry of the configuration, wherever its name leads. -/
structure WorksOn (store : Store) (m : Machine) (c : Config) (w : String) (front : List Entry) (e : Entry)
    (back : List Entry) : Prop where
  /-- A session is opened on it. -/
  opened : m.connect store w = .ok ⟨e⟩
  /-- Files are read below its root. -/
  read : ∀ path, m.fileOf store w path =
    match m.files.contentOf ((Path.ofText e.root).join (.ofText path)) with
    | .ok bytes => .ok (some bytes)
    | .error .notFound => .ok none
    | .error cause => .error (.system cause)
  /-- The session lists its levels. -/
  listed : ∀ listeners, m.listening = .ok listeners →
    Session.sharedPorts ⟨e⟩ store m =
      .ok (listeners.map fun l => ⟨l.port, (e.privacy.get? l.port).getD defaultLevel⟩)
  /-- The session sets its level, and fails only where the configuration cannot be saved. -/
  changed : ∀ (port : Port) (level : String), level ≠ "" →
    Session.setLevel ⟨e⟩ store port.toNat level m =
      (store.save (c.withLevel front e back port level) m.files).map (Except.mapError .config)
        fun files => { m with files }
  /-- Then it is the one whose level is different. -/
  kept : ∀ (port : Port) (level : String) (m' : Machine), level ≠ "" →
    Session.setLevel ⟨e⟩ store port.toNat level m = (.ok (), m') →
    store.load m'.files = .ok (c.withLevel front e back port level)

theorem entry_of_first (hload : store.load m.files = .ok c) (h : c.First front e back) :
    m.entry store e.name = .ok e := by
  have hfind : store.find e.name m.files = .ok (some e) := by
    unfold Store.find
    rw [hload, ← h.find?]
    rfl
  unfold entry
  rw [hfind]

theorem connect_of_first (hload : store.load m.files = .ok c) (h : c.First front e back) :
    m.connect store e.name = .ok ⟨e⟩ := by
  unfold connect
  rw [entry_of_first hload h]
  rfl

theorem level?_of_first (h : c.First front e back) (port : Port) :
    c.level? e.name port = e.privacy.get? port := by
  unfold Config.level?
  rw [h.find?, Option.bind_some]

/-- A level is set by saving the configuration in which it is set. -/
theorem setLevel_of_first (hload : store.load m.files = .ok c) (h : c.First front e back) {port : Port}
    {level : String} (hlevel : level ≠ "") :
    Session.setLevel ⟨e⟩ store port.toNat level m =
      (store.save (c.withLevel front e back port level) m.files).map (Except.mapError .config)
        fun files => { m with files } := by
  have hport : Port.ofInt? port.toNat = some port := Port.ofInt?_eq_some_iff.mpr rfl
  have hchange : store.setLevel e.name port level m.files =
      store.save (c.withLevel front e back port level) m.files := by
    unfold Store.setLevel Store.change
    simp only [hload, h.setLevel]
  unfold Session.setLevel
  simp only [hport, if_neg hlevel, hchange]
  rfl

/-- **The first workspace of a name** is the one that is worked on. -/
theorem worksOn_of_first (hload : store.load m.files = .ok c) (h : c.First front e back) :
    m.WorksOn store c e.name front e back where
  opened := connect_of_first hload h
  read := by
    intro path
    have hentry := entry_of_first hload h
    rcases hcontent : m.files.contentOf ((Path.ofText e.root).join (.ofText path)) with cause | bytes
    · cases cause <;> simp [fileOf, hentry, hcontent]
    · simp [fileOf, hentry, hcontent]
  listed := by
    intro listeners hscan
    rw [Session.sharedPorts_eq ⟨e⟩ hload hscan]
    simp only [level?_of_first h]
  changed := by
    intro port level hlevel
    exact setLevel_of_first hload h hlevel
  kept := by
    intro port level m' hlevel hset
    rw [setLevel_of_first hload h hlevel] at hset
    have hsaved := store.load_of_save (c.withLevel front e back port level) m.files
    revert hset hsaved
    rcases store.save (c.withLevel front e back port level) m.files with ⟨cause | _, files⟩
    · intro hset
      exact absurd (Prod.mk.inj hset).1 (by simp [Except.mapError])
    · -- what was saved is what is loaded again
      intro hset hsaved
      obtain ⟨-, rfl⟩ := Prod.mk.inj hset
      exact hsaved

/-- **Choosing, opening and reading agree.** A file that cannot be loaded is the reason why nothing is chosen.
    Otherwise there is nothing to choose just if there are no workspaces; a name that is not empty chooses just
    if it is the name of a workspace, and the empty one just if there is one workspace only. What was chosen is
    then worked on, the first workspace of that name. -/
theorem chosen_is_first (store : Store) (m : Machine) (name : String) :
    (∀ error, store.load m.files = .error error → m.choose store name = .error (.other (.config error))) ∧
    ∀ c, store.load m.files = .ok c →
      (m.choose store name = .error .noWorkspaces ↔ c.workspaces = []) ∧
      (name ≠ "" → ((∃ w, m.choose store name = .ok w) ↔ ∃ e ∈ c.workspaces, e.name = name)) ∧
      (name = "" → ((∃ w, m.choose store name = .ok w) ↔ ∃ e, c.workspaces = [e])) ∧
      ∀ w, m.choose store name = .ok w → (name ≠ "" → w = name) ∧
        ∃ front e back, c.First front e back ∧ e.name = w ∧ m.WorksOn store c w front e back := by
  refine ⟨fun error hload => choose_of_error hload name, ?_⟩
  intro c hload
  have hchooses := choose_of_load hload name
  refine ⟨hchooses.noWorkspaces_iff, ?_, ?_, ?_⟩
  · intro hn
    simp [hchooses.named_iff hn]
  · intro hn
    simp [hchooses.unnamed_iff hn]
  · intro w hw
    refine ⟨fun hn => ((hchooses.named_iff hn).mp hw).1, ?_⟩
    rw [hw] at hchooses
    obtain ⟨d, hd, rfl⟩ := hchooses.mem
    obtain ⟨front, e, back, hfirst, hname⟩ := Config.exists_first hd
    refine ⟨front, e, back, hfirst, hname, ?_⟩
    rw [← hname]
    exact worksOn_of_first hload hfirst

/-- A file that is cut short. -/
def cut : Machine := { files := { entries := [("c.json", .file (Utf8.encode "[1"))] } }

/-- Of two workspaces of one name the first is worked on, the empty name chooses none of them, and a file that
    is cut short chooses none either. -/
theorem chosen_is_first_twofold :
    Store.load ⟨⟨["c.json"]⟩⟩ twofold.files = .ok twice ∧
    (∃ front e back, twice.First front e back ∧ e.name = "a" ∧
      twofold.WorksOn ⟨⟨["c.json"]⟩⟩ twice "a" front e back) ∧
    (¬ ∃ w, twofold.choose ⟨⟨["c.json"]⟩⟩ "" = .ok w) ∧
    cut.choose ⟨⟨["c.json"]⟩⟩ "a" = .error (.other (.config .malformed)) := by
  have hload : Store.load ⟨⟨["c.json"]⟩⟩ twofold.files = .ok twice := Store.load_of_find (by rfl)
  refine ⟨hload, ?_, ?_, ?_⟩
  · obtain ⟨-, hnamed, -, hwork⟩ := (chosen_is_first ⟨⟨["c.json"]⟩⟩ twofold "a").2 twice hload
    obtain ⟨w, hw⟩ := (hnamed (by decide)).mpr ⟨_, List.mem_cons_self, rfl⟩
    obtain ⟨hname, hfirst⟩ := hwork w hw
    obtain rfl := hname (by decide)
    exact hfirst
  · obtain ⟨-, -, hunnamed, -⟩ := (chosen_is_first ⟨⟨["c.json"]⟩⟩ twofold "").2 twice hload
    rw [hunnamed rfl]
    rintro ⟨e, he⟩
    simp [twice] at he
  · exact (chosen_is_first ⟨⟨["c.json"]⟩⟩ cut "a").1 .malformed (by rfl)

/-! ## Stored workspaces -/

/-- A stored workspace chooses itself by its name, unless that is empty and there are others. -/
theorem Chooses.stored_iff (h : Chooses c.workspaces e.name result) (he : e ∈ c.workspaces) :
    result = .ok e.name ↔ e.name ≠ "" ∨ c.workspaces = [e] := by
  by_cases hn : e.name = ""
  · rw [h.unnamed_iff hn, or_iff_right (not_not_intro hn)]
    constructor
    · rintro ⟨only, hw, -⟩
      rw [hw, List.mem_singleton] at he
      rw [hw, he]
    · intro hw
      exact ⟨e, hw, rfl⟩
  · rw [h.named_iff hn]
    exact iff_of_true ⟨rfl, e, he, rfl⟩ (Or.inl hn)

/-- Where it does not, the choice asks for a name. -/
theorem Chooses.several_of_stored (h : Chooses c.workspaces e.name result) (he : e ∈ c.workspaces)
    (hn : e.name = "") (hothers : c.workspaces ≠ [e]) :
    result = .error (.other (.severalWorkspaces c.names)) := by
  cases h with
  | nothing hw => simp [hw] at he
  | only _ hw =>
    rw [hw, List.mem_singleton] at he
    exact absurd (by rw [hw, he]) hothers
  | several _ hw => rfl
  | named hn' hw => exact absurd hn hn'
  | unknown hn' hne hw => exact absurd hn hn'

/-- Acts without savings are a run. -/
theorem performAll_act (acts : List Act) : (m.performAll store (acts.map .act)).2 = (m.run store acts).2 := by
  induction acts generalizing m with
  | nil => rfl
  | cons a acts ih => exact ih

/-- **A run leaves distinct names**, if it starts without a file and no act leads astray. -/
theorem run_distinct (habsent : m.files.exists? store.path = false) {acts : List Act}
    (hstraight : m.Straight store (acts.map .act)) :
    ∃ c, store.load (m.run store acts).2.files = .ok c ∧ c.Distinct := by
  rw [← performAll_act]
  apply performAll_distinct (acts.map .act) (Store.load_of_absent habsent) hstraight List.nodup_nil
  intro d hd
  exact absurd (save_mem_of_saved hd) (by simp)

/-- **Stored workspaces can be chosen.** After any run that starts without a file, every workspace that is
    loaded can be chosen by its name, unless that is empty and there are others; then the choice asks for a
    name. A session is opened by the name on the first workspace that has it, which is the workspace itself, if
    no act leads astray. On a path without two dots none does. -/
theorem stored_can_be_chosen (store : Store) (m : Machine) (habsent : m.files.exists? store.path = false)
    (acts : List Act) :
    (∀ c, store.load (m.run store acts).2.files = .ok c → ∀ e ∈ c.workspaces,
      ((m.run store acts).2.choose store e.name = .ok e.name ↔ e.name ≠ "" ∨ c.workspaces = [e]) ∧
      (e.name = "" → c.workspaces ≠ [e] →
        (m.run store acts).2.choose store e.name = .error (.other (.severalWorkspaces c.names))) ∧
      ∃ front first back, c.First front first back ∧ first.name = e.name ∧
        (m.run store acts).2.connect store e.name = .ok ⟨first⟩) ∧
    (m.Straight store (acts.map .act) → ∃ c, store.load (m.run store acts).2.files = .ok c ∧
      ∀ e ∈ c.workspaces, (m.run store acts).2.connect store e.name = .ok ⟨e⟩) ∧
    (".." ∉ store.path.pieces → m.Straight store (acts.map .act)) := by
  refine ⟨?_, ?_, fun hdots => straight_of_no_dots hdots _⟩
  · intro c hload e he
    have hchooses := choose_of_load hload e.name
    refine ⟨hchooses.stored_iff he, hchooses.several_of_stored he, ?_⟩
    obtain ⟨front, first, back, hfirst, hname⟩ := Config.exists_first he
    refine ⟨front, first, back, hfirst, hname, ?_⟩
    rw [← hname]
    exact connect_of_first hload hfirst
  · intro hstraight
    obtain ⟨c, hload, hdistinct⟩ := run_distinct habsent hstraight
    refine ⟨c, hload, ?_⟩
    intro e he
    obtain ⟨front, back, hfirst⟩ := hdistinct.first he
    exact connect_of_first hload hfirst

/-- A workspace of the empty name is added, and then another. -/
def unnamedAdded : List Act :=
  [.request (.add { name := "", root := "/a" }), .request (.add { name := "b", root := "/b" })]

/-- What they leave. -/
def unnamed : Config := { workspaces := [{ name := "", root := "/a" }, { name := "b", root := "/b" }] }

theorem load_unnamed :
    Store.load ⟨⟨["c.json"]⟩⟩ (run ⟨⟨["c.json"]⟩⟩ { files := {} } unnamedAdded).2.files = .ok unnamed := by
  decide +kernel

/-- The other one can be chosen. -/
theorem stored_can_be_chosen_beside :
    FileSystem.exists? {} ⟨["c.json"]⟩ = false ∧
    (run ⟨⟨["c.json"]⟩⟩ { files := {} } unnamedAdded).2.choose ⟨⟨["c.json"]⟩⟩ "b" = .ok "b" ∧
    (run ⟨⟨["c.json"]⟩⟩ { files := {} } unnamedAdded).2.connect ⟨⟨["c.json"]⟩⟩ "b" =
      .ok ⟨{ name := "b", root := "/b" }⟩ := by
  have habsent : FileSystem.exists? {} ⟨["c.json"]⟩ = false := by rfl
  have hmem : { name := "b", root := "/b" } ∈ unnamed.workspaces := List.mem_cons_of_mem _ List.mem_cons_self
  obtain ⟨hstored, hconnects, hdots⟩ :=
    stored_can_be_chosen ⟨⟨["c.json"]⟩⟩ { files := {} } habsent unnamedAdded
  obtain ⟨hchoose, -, -⟩ := hstored unnamed load_unnamed { name := "b", root := "/b" } hmem
  obtain ⟨c, hload, hconnect⟩ := hconnects (hdots (by decide))
  obtain rfl := Except.ok.inj (load_unnamed.symm.trans hload)
  have hopened := hconnect { name := "b", root := "/b" } hmem
  exact ⟨habsent, hchoose.mpr (Or.inl (by decide)), hopened⟩

/-- **Not every stored workspace can be chosen**: not one of the empty name that has others beside it, and not
    the second of its name, which is there only after an act that leads astray. -/
theorem not_all_chosen :
    (¬ ∀ (store : Store) (m : Machine) (acts : List Act) (c : Config), m.files.exists? store.path = false →
      store.load (m.run store acts).2.files = .ok c → ∀ e ∈ c.workspaces,
        (m.run store acts).2.choose store e.name = .ok e.name) ∧
    ¬ ∀ (store : Store) (m : Machine) (acts : List Act) (c : Config), m.files.exists? store.path = false →
      store.load (m.run store acts).2.files = .ok c → ∀ e ∈ c.workspaces,
        (m.run store acts).2.connect store e.name = .ok ⟨e⟩ := by
  constructor
  · intro h
    have hchosen := h ⟨⟨["c.json"]⟩⟩ { files := {} } unnamedAdded unnamed (by rfl) load_unnamed
      { name := "", root := "/a" } List.mem_cons_self
    have hname : "" ≠ "" ∨ unnamed.workspaces = [{ name := "", root := "/a" }] :=
      ((choose_of_load load_unnamed "").stored_iff List.mem_cons_self).mp hchosen
    simp [unnamed] at hname
  · intro h
    have hload : Store.crossing.load
        (crossed.run Store.crossing [.request (.setPreviewDomain "d")]).2.files = .ok twice :=
      Store.load_of_find (by rfl)
    -- the refused act has made the directory out of which the path goes up
    have hsecond := h Store.crossing crossed _ twice (by rfl) hload
      { name := "a", root := "/b" } (List.mem_cons_of_mem _ List.mem_cons_self)
    have hfirst : twice.First [] { name := "a", root := "/a", privacy := .ofList [(80, "org")] }
        [{ name := "a", root := "/b" }] := ⟨rfl, nofun⟩
    have hopened := connect_of_first hload hfirst
    exact absurd (hopened.symm.trans hsecond) (by decide)

end Machine

end SharedPorts
