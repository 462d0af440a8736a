import SharedPorts.Config.Store
import SharedPorts.Proofs.Config.Codec
import SharedPorts.Proofs.FileSystem.Walk

/-!
# `SharedPorts.Proofs.Config.Refinement` — a store keeps one configuration

Every operation of a store goes through the file, and every change through its text. Seen from outside none
of this shows: as long as the file system keeps what it is given, the store answers as a configuration in
memory would, and what it loads after each operation is that configuration.

## Contents
- **The configuration in memory.** `StoreRequest`, `StoreAnswer`, and `Config.Answers`, which says what each
  request does to a configuration; `Config.History`.
- **Changes.** Each change of a configuration does what its request asks.
- **The store.** `Store.perform` and `Store.history`; `Store.load_of_save`, and the main statement
  `Store.history_refines`.
-/

namespace SharedPorts

/-! ## The configuration in memory -/

/-- What is asked of a store. -/
inductive StoreRequest
  | load
  | workspaces
  | find (name : String)
  | add (entry : Entry)
  | remove (name : String)
  | setLevel (name : String) (port : Port) (level : String)
  | setPreviewDomain (domain : String)
  | setBindAddress (address : IpAddress)
  deriving DecidableEq, Repr

/-- What a store answers. -/
inductive StoreAnswer
  | config (result : Except ConfigError Config)
  | entries (result : Except ConfigError (List Entry))
  | entry (result : Except ConfigError (Option Entry))
  | done (result : Except ConfigError Unit)

/-- The file system has refused to keep a change. -/
def ConfigError.isRefusal : ConfigError → Bool
  | .noDirectory _ | .noTemporary _ | .noRename _ => true
  | .unreadable _ | .malformed | .duplicate _ | .unknown _ => false

/-- The file system has refused to keep what was asked for. -/
def StoreAnswer.isRefusal : StoreAnswer → Bool
  | .done (.error e) => e.isRefusal
  | _ => false

/-- Only a change is refused. -/
theorem StoreAnswer.eq_of_isRefusal {answer : StoreAnswer} (h : answer.isRefusal = true) :
    ∃ e, answer = .done (.error e) := by
  rcases answer with _ | _ | _ | ⟨e | _⟩
  · exact absurd h nofun
  · exact absurd h nofun
  · exact absurd h nofun
  · exact ⟨e, rfl⟩
  · exact absurd h nofun

namespace Config

/-- **What a request does** to a configuration, and how it is answered. -/
inductive Answers (c : Config) : StoreRequest → StoreAnswer → Config → Prop
  | load : Answers c .load (.config (.ok c)) c
  | workspaces : Answers c .workspaces (.entries (.ok c.workspaces)) c
  /-- The first workspace of the name is found. -/
  | found {name : String} {front back : List Entry} {e : Entry} (hw : c.workspaces = front ++ e :: back)
      (he : e.name = name) (hf : ∀ d ∈ front, d.name ≠ name) :
      Answers c (.find name) (.entry (.ok (some e))) c
  | notFound {name : String} (hw : ∀ d ∈ c.workspaces, d.name ≠ name) :
      Answers c (.find name) (.entry (.ok none)) c
  /-- A workspace is added at the end, if its name is new. -/
  | added {entry : Entry} (hw : ∀ d ∈ c.workspaces, d.name ≠ entry.name) :
      Answers c (.add entry) (.done (.ok ())) { c with workspaces := c.workspaces ++ [entry] }
  | duplicate {entry : Entry} (hw : ∃ d ∈ c.workspaces, d.name = entry.name) :
      Answers c (.add entry) (.done (.error (.duplicate entry.name))) c
  /-- All workspaces of the name are removed, and the others keep their order. -/
  | removed {name : String} (hw : ∃ d ∈ c.workspaces, d.name = name) :
      Answers c (.remove name) (.done (.ok ()))
        { c with workspaces := c.workspaces.filter fun d => d.name ≠ name }
  | notRemoved {name : String} (hw : ∀ d ∈ c.workspaces, d.name ≠ name) :
      Answers c (.remove name) (.done (.error (.unknown name))) c
  /-- The first workspace of the name gets the level for the port, and keeps those of other ports. -/
  | levelSet {name level : String} {port : Port} {front back : List Entry} {e : Entry} {levels : PortLevels}
      (hw : c.workspaces = front ++ e :: back) (he : e.name = name) (hf : ∀ d ∈ front, d.name ≠ name)
      (hl : levels.get? port = some level) (ho : ∀ q, q ≠ port → levels.get? q = e.privacy.get? q) :
      Answers c (.setLevel name port level) (.done (.ok ()))
        { c with workspaces := front ++ { e with privacy := levels } :: back }
  | levelNotSet {name level : String} {port : Port} (hw : ∀ d ∈ c.workspaces, d.name ≠ name) :
      Answers c (.setLevel name port level) (.done (.error (.unknown name))) c
  | domainSet {domain : String} :
      Answers c (.setPreviewDomain domain) (.done (.ok ())) { c with previewDomain := domain }
  | addressSet {address : IpAddress} :
      Answers c (.setBindAddress address) (.done (.ok ())) { c with bindAddress := address }

/-- **A history**: the requests made of a configuration, each with its answer and the configuration that is
    loaded after it. -/
inductive History : Config → List StoreRequest → List (StoreAnswer × Except ConfigError Config) → Prop
  | nil {c : Config} : History c [] []
  | cons {c c' : Config} {request : StoreRequest} {answer : StoreAnswer} {requests : List StoreRequest}
      {history : List (StoreAnswer × Except ConfigError Config)} (ha : c.Answers request answer c')
      (hh : History c' requests history) : History c (request :: requests) ((answer, .ok c') :: history)

/-! ## Changes -/

variable {c : Config} {name level : String} {port : Port} {entry : Entry}

theorem any_name_iff : c.workspaces.any (·.name == name) = true ↔ ∃ d ∈ c.workspaces, d.name = name := by
  rw [List.any_eq_true]
  exact exists_congr (fun d => and_congr_right (fun _ => beq_iff_eq))

theorem not_any_name (h : c.workspaces.any (·.name == name) = false) : ∀ d ∈ c.workspaces, d.name ≠ name := by
  intro d hd heq
  have hany := any_name_iff.mpr ⟨d, hd, heq⟩
  rw [h] at hany
  exact absurd hany Bool.false_ne_true

/-- A change does what a request asks, and is refused as the request is. -/
def Does (request : StoreRequest) (edit : Config → Except ConfigError Config) : Prop :=
  ∀ c, match edit c with
    | .ok c' => c.Answers request (.done (.ok ())) c'
    | .error e => c.Answers request (.done (.error e)) c ∧ e.isRefusal = false

theorem add_does (entry : Entry) : Does (.add entry) (add entry) := by
  intro c
  unfold add
  cases hany : c.workspaces.any (·.name == entry.name) with
  | true => exact ⟨.duplicate (any_name_iff.mp hany), rfl⟩
  | false => exact .added (not_any_name hany)

theorem remove_does (name : String) : Does (.remove name) (remove name) := by
  intro c
  unfold remove
  cases hany : c.workspaces.any (·.name == name) with
  | true =>
    have hfilter : c.workspaces.filter (·.name != name) = c.workspaces.filter fun d => d.name ≠ name :=
      List.filter_congr (fun d _ => (decide_not.trans (congrArg not (Bool.beq_eq_decide_eq d.name name).symm)).symm)
    rw [if_pos rfl, hfilter]
    exact .removed (any_name_iff.mp hany)
  | false => exact ⟨.notRemoved (not_any_name hany), rfl⟩

/-- The first workspace of a name is changed, where there is one. -/
theorem changeFirst_spec (name : String) (change : Entry → Entry) (es : List Entry) :
    match changeFirst name change es with
    | none => ∀ d ∈ es, d.name ≠ name
    | some es' => ∃ front e back, es = front ++ e :: back ∧ e.name = name ∧ (∀ d ∈ front, d.name ≠ name) ∧
        es' = front ++ change e :: back := by
  induction es with
  | nil => exact fun d hd => absurd hd List.not_mem_nil
  | cons e es ih =>
    unfold changeFirst
    by_cases he : e.name = name
    · rw [if_pos he]
      exact ⟨[], e, es, rfl, he, fun d hd => absurd hd List.not_mem_nil, rfl⟩
    · rw [if_neg he]
      cases hrest : changeFirst name change es with
      | none =>
        rw [hrest] at ih
        intro d hd
        rcases List.mem_cons.mp hd with rfl | hd
        · exact he
        · exact ih d hd
      | some es' =>
        rw [hrest] at ih
        obtain ⟨front, e', back, rfl, he', hf, rfl⟩ := ih
        refine ⟨e :: front, e', back, rfl, he', ?_, rfl⟩
        intro d hd
        rcases List.mem_cons.mp hd with rfl | hd
        · exact he
        · exact hf d hd

theorem setLevel_does (name : String) (port : Port) (level : String) :
    Does (.setLevel name port level) (setLevel name port level) := by
  intro c
  have hspec := changeFirst_spec name (fun e => { e with privacy := e.privacy.insert port level }) c.workspaces
  unfold setLevel
  cases hfirst : changeFirst name (fun e => { e with privacy := e.privacy.insert port level }) c.workspaces with
  | none =>
    rw [hfirst] at hspec
    exact ⟨.levelNotSet hspec, rfl⟩
  | some es =>
    rw [hfirst] at hspec
    obtain ⟨front, e, back, hw, he, hf, rfl⟩ := hspec
    exact .levelSet hw he hf (e.privacy.get?_insert_self port level)
      (fun q hq => e.privacy.get?_insert_of_ne level hq)

theorem setPreviewDomain_does (domain : String) : Does (.setPreviewDomain domain) (setPreviewDomain domain) :=
  fun _ => .domainSet

theorem setBindAddress_does (address : IpAddress) : Does (.setBindAddress address) (setBindAddress address) :=
  fun _ => .addressSet

/-- The search for a workspace finds the first of its name. -/
theorem find?_answers (c : Config) (name : String) : c.Answers (.find name) (.entry (.ok (c.find? name))) c := by
  unfold find?
  cases hfind : c.workspaces.find? (·.name == name) with
  | none =>
    refine .notFound ?_
    intro d hd heq
    have hnot := List.find?_eq_none.mp hfind d hd
    exact hnot (beq_iff_eq.mpr heq)
  | some e =>
    obtain ⟨he, front, back, hw, hf⟩ := List.find?_eq_some_iff_append.mp hfind
    refine .found hw (beq_iff_eq.mp he) ?_
    intro d hd heq
    have hnot := hf d hd
    rw [beq_iff_eq.mpr heq] at hnot
    exact absurd hnot (by simp)

end Config

/-! ## The store -/

namespace Store

variable {s : Store} {fs fs' : FileSystem} {c : Config}

/-- Perform a request. -/
def perform (s : Store) (request : StoreRequest) (fs : FileSystem) : StoreAnswer × FileSystem :=
  match request with
  | .load => (.config (s.load fs), fs)
  | .workspaces => (.entries (s.workspaces fs), fs)
  | .find name => (.entry (s.find name fs), fs)
  | .add entry => (s.add entry fs).map .done id
  | .remove name => (s.remove name fs).map .done id
  | .setLevel name port level => (s.setLevel name port level fs).map .done id
  | .setPreviewDomain domain => (s.setPreviewDomain domain fs).map .done id
  | .setBindAddress address => (s.setBindAddress address fs).map .done id

/-- Perform requests one after the other: each answer, and what is loaded after it. -/
def history (s : Store) : List StoreRequest → FileSystem → List (StoreAnswer × Except ConfigError Config)
  | [], _ => []
  | request :: requests, fs =>
    let (answer, fs) := s.perform request fs
    (answer, s.load fs) :: s.history requests fs

/-- Where there is no file, the configuration has its defaults. -/
theorem load_of_absent (h : fs.exists? s.path = false) : s.load fs = .ok {} := by
  unfold load
  rw [h]
  rfl

/-- **Saving** is refused by the file system, or writes a file and renames it. -/
theorem save_cases (s : Store) (c : Config) (fs : FileSystem) :
    (∃ e fs', s.save c fs = (.error e, fs') ∧ e.isRefusal = true) ∨
    ∃ fs₁ fs₂ fs' : FileSystem, fs₁.writeFile s.temporary c.render = .ok fs₂ ∧
      fs₂.rename s.temporary s.path = .ok fs' ∧ s.save c fs = (.ok (), fs') := by
  unfold save
  cases hprepare : s.prepare fs with
  | mk result fs₁ =>
    cases result with
    | error e => exact Or.inl ⟨_, _, rfl, rfl⟩
    | ok _ =>
      dsimp only
      cases hwrite : fs₁.writeFile s.temporary c.render with
      | error e => exact Or.inl ⟨_, _, rfl, rfl⟩
      | ok fs₂ =>
        dsimp only
        cases hrename : fs₂.rename s.temporary s.path with
        | error e => exact Or.inl ⟨_, _, rfl, rfl⟩
        | ok fs' => exact Or.inr ⟨fs₁, fs₂, fs', hwrite, hrename, rfl⟩

/-- A file is loaded by its bytes, which have to be a text, and one of a configuration. -/
theorem load_of_file {bytes : Bytes} (h : fs.find s.path = .ok (.file bytes)) :
    s.load fs =
      if (Utf8.decode? bytes).isNone then .error (.unreadable .notText)
      else
        match Config.parse? bytes with
        | none => .error .malformed
        | some c => .ok c := by
  have hexists : fs.exists? s.path = true := by
    unfold FileSystem.exists?
    rw [h]
    rfl
  have hcontent : fs.contentOf s.path = .ok bytes := by
    unfold FileSystem.contentOf
    rw [h]
  cases hdecode : (Utf8.decode? bytes).isNone with
  | true => simp [load, hexists, hcontent, hdecode]
  | false => cases hparse : Config.parse? bytes <;> simp [load, hexists, hcontent, hdecode, hparse]

/-- A file is loaded as a configuration just if its bytes are a text, and the text is one of it. -/
theorem load_eq_ok_iff {bytes : Bytes} (h : fs.find s.path = .ok (.file bytes)) :
    s.load fs = .ok c ↔ (Utf8.decode? bytes).isNone = false ∧ Config.parse? bytes = some c := by
  rw [load_of_file h]
  cases hdecode : (Utf8.decode? bytes).isNone with
  | true => simp
  | false => cases hparse : Config.parse? bytes <;> simp

/-- A file that holds a configuration is loaded as that configuration. -/
theorem load_of_find (h : fs.find s.path = .ok (.file c.render)) : s.load fs = .ok c := by
  refine (load_eq_ok_iff h).mpr ⟨?_, c.parse?_render⟩
  rw [Option.isNone_eq_false_iff]
  exact c.isText_render.isSome_decode?

/-- **What was saved is loaded**, and only the file system refuses to save. -/
theorem load_of_save (s : Store) (c : Config) (fs : FileSystem) :
    match s.save c fs with
    | (.ok (), fs') => s.load fs' = .ok c
    | (.error e, _) => e.isRefusal = true := by
  rcases s.save_cases c fs with ⟨e, fs', hsave, he⟩ | ⟨fs₁, fs₂, fs', hwrite, hrename, hsave⟩
  · rw [hsave]
    exact he
  · rw [hsave]
    exact load_of_find (FileSystem.find_of_rename_writeFile hwrite hrename)

/-- **A change of the store** is the change of the configuration that it holds, unless the file system
    refuses to keep it. -/
theorem change_answers {request : StoreRequest} {edit : Config → Except ConfigError Config}
    (hload : s.load fs = .ok c) (hdoes : Config.Does request edit)
    (hkept : StoreAnswer.isRefusal (.done (s.change edit fs).1) = false) :
    ∃ c', c.Answers request (.done (s.change edit fs).1) c' ∧ s.load (s.change edit fs).2 = .ok c' := by
  have hedit := hdoes c
  unfold change at hkept ⊢
  rw [hload] at hkept ⊢
  dsimp only at hkept ⊢
  cases hresult : edit c with
  | error e =>
    rw [hresult] at hedit
    exact ⟨c, hedit.1, hload⟩
  | ok c' =>
    rw [hresult] at hedit hkept
    dsimp only at hkept ⊢
    -- either the file system has refused to save, or what was saved is loaded
    have hsave := s.load_of_save c' fs
    revert hkept hsave
    rcases s.save c' fs with ⟨_ | _, fs'⟩
    · intro hkept hrefused
      exact absurd (hrefused.symm.trans hkept) (by simp)
    · intro _ hsave
      exact ⟨c', hedit, hsave⟩

/-- **A request** is answered as the configuration answers it. -/
theorem perform_answers (request : StoreRequest) (hload : s.load fs = .ok c)
    (hkept : (s.perform request fs).1.isRefusal = false) :
    ∃ c', c.Answers request (s.perform request fs).1 c' ∧ s.load (s.perform request fs).2 = .ok c' := by
  cases request with
  | load =>
    refine ⟨c, ?_, hload⟩
    show c.Answers .load (.config (s.load fs)) c
    rw [hload]
    exact .load
  | workspaces =>
    refine ⟨c, ?_, hload⟩
    show c.Answers .workspaces (.entries ((·.workspaces) <$> s.load fs)) c
    rw [hload]
    exact .workspaces
  | find name =>
    refine ⟨c, ?_, hload⟩
    show c.Answers (.find name) (.entry ((·.find? name) <$> s.load fs)) c
    rw [hload]
    exact c.find?_answers name
  | add entry => exact change_answers hload (Config.add_does entry) hkept
  | remove name => exact change_answers hload (Config.remove_does name) hkept
  | setLevel name port level => exact change_answers hload (Config.setLevel_does name port level) hkept
  | setPreviewDomain domain => exact change_answers hload (Config.setPreviewDomain_does domain) hkept
  | setBindAddress address => exact change_answers hload (Config.setBindAddress_does address) hkept

/-- **A store refines a configuration in memory.** From a file that is missing or holds a configuration, as
    long as the file system keeps what it is given, all answers and all configurations loaded in between are
    those of a history of that configuration; where the file is missing, it has its defaults. -/
theorem history_refines (s : Store) (fs : FileSystem) (c : Config) (requests : List StoreRequest)
    (hload : s.load fs = .ok c) (hkept : ∀ step ∈ s.history requests fs, step.1.isRefusal = false) :
    c.History requests (s.history requests fs) ∧ (fs.exists? s.path = false → c = {}) := by
  constructor
  · -- each request leaves a file from which the next configuration is loaded
    induction requests generalizing fs c with
    | nil => exact .nil
    | cons request requests ih =>
      have hfirst : (s.perform request fs).1.isRefusal = false := hkept _ List.mem_cons_self
      obtain ⟨c', hanswer, hload'⟩ := perform_answers request hload hfirst
      have hrest := ih _ c' hload' (fun step hstep => hkept step (List.mem_cons_of_mem _ hstep))
      show c.History (request :: requests)
        (((s.perform request fs).1, s.load (s.perform request fs).2) ::
          s.history requests (s.perform request fs).2)
      rw [hload']
      exact .cons hanswer hrest
  · intro habsent
    exact Except.ok.inj (hload.symm.trans (load_of_absent habsent))

/-- On an empty file system a workspace is added once, and gets a level. -/
theorem history_refines_on_empty :
    Store.load ⟨⟨[".spaceport", "config.json"]⟩⟩ {} = .ok {} ∧
    (∀ step ∈ Store.history ⟨⟨[".spaceport", "config.json"]⟩⟩
        [.add { name := "a", root := "/a" }, .add { name := "a", root := "/b" }, .setLevel "a" 80 "public",
          .find "a", .remove "b"] {}, step.1.isRefusal = false) ∧
    Config.History {}
      [.add { name := "a", root := "/a" }, .add { name := "a", root := "/b" }, .setLevel "a" 80 "public",
        .find "a", .remove "b"]
      (Store.history ⟨⟨[".spaceport", "config.json"]⟩⟩
        [.add { name := "a", root := "/a" }, .add { name := "a", root := "/b" }, .setLevel "a" 80 "public",
          .find "a", .remove "b"] {}) := by
  have hload : Store.load ⟨⟨[".spaceport", "config.json"]⟩⟩ {} = .ok {} := rfl
  have hkept : ∀ step ∈ Store.history ⟨⟨[".spaceport", "config.json"]⟩⟩
      [.add { name := "a", root := "/a" }, .add { name := "a", root := "/b" }, .setLevel "a" 80 "public",
        .find "a", .remove "b"] {}, step.1.isRefusal = false := by decide +kernel
  exact ⟨hload, hkept, (history_refines _ _ _ _ hload hkept).1⟩

end Store

end SharedPorts
