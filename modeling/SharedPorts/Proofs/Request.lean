import SharedPorts.Proofs.Text.Fields
import SharedPorts.Proofs.Text.Integer
import SharedPorts.Request
import Mathlib.Data.List.Forall2

/-!
# `SharedPorts.Proofs.Request` — the grammar of requests

What a request looks like is told here by its text alone: where its colons are, and which numbers the parts
between them denote. The parsers accept just that, and refuse everything else with the fault that comes
first. A list of requests is read all or nothing, so that its first bad text decides how it is refused.

## Contents
- **Grammar.** `WideNumeral` and `Parts`; `LevelRequest.Written` and `ForwardRequest.Written`.
- **Faults.** `LevelRequest.Refused` and `ForwardRequest.Refused`.
- **Fields.** The colons of a text and its fields.
- **Single requests.** `Reads`, for both parsers.
- **Lists.** `FirstMalformed`, and `ReadsAll`.
- **Printing.** `LevelRequest.printed` and `ForwardRequest.printed`; `requests_exact`.
-/

namespace SharedPorts

variable {spec : String} {cs first second : List Char} {n : Int} {e : RequestError}

/-! ## Grammar -/

/-- An integer of 64 bits. -/
def Wide (n : Int) : Prop := Integer.InRange 9223372036854775808 9223372036854775807 n

/-- A part of a request that denotes an integer of 64 bits. -/
structure WideNumeral (cs : List Char) (n : Int) : Prop where
  denotes : Integer.Denotes cs n
  wide : Wide n

/-- **The first two parts** of a text: one before its first colon, the other from there to the next colon,
    or to the end. -/
def Parts (cs first second : List Char) : Prop :=
  ∃ more, cs = first ++ ':' :: (second ++ more) ∧ ':' ∉ first ∧ ':' ∉ second ∧ ∀ c ∈ more.head?, c = ':'

/-- **A request for a level** has one colon, a number before it, and the level behind it. -/
inductive LevelRequest.Written (spec : String) (r : LevelRequest) : Prop
  | intro {field : List Char} (colon : spec.toList.count ':' = 1)
      (text : spec.toList = field ++ ':' :: r.level.toList) (port : WideNumeral field r.port)

/-- **A request for a forward** has a number as its first part, and a port as its second. -/
inductive ForwardRequest.Written (spec : String) (r : ForwardRequest) : Prop
  | intro {first second : List Char} (parts : Parts spec.toList first second)
      (remote : WideNumeral first r.remote) (localPort : WideNumeral second r.localPort.toNat)

/-! ## Faults -/

/-- A part of a request that denotes no integer of 64 bits. -/
def BadNumeral (cs : List Char) (fault : Integer.Fault) : Prop :=
  Integer.Refused 9223372036854775808 9223372036854775807 cs fault

/-- **Why a request for a level is refused**: for its colons, else for its number. -/
inductive LevelRequest.Refused (spec : String) : RequestError → Prop
  | form (colon : spec.toList.count ':' ≠ 1) : Refused spec (.privacyForm spec)
  | number {field level : List Char} {fault : Integer.Fault} (colon : spec.toList.count ':' = 1)
      (text : spec.toList = field ++ ':' :: level) (port : BadNumeral field fault) :
      Refused spec (.number .privacy (String.ofList field) fault)

/-- **Why a request for a forward is refused**: for the lack of a colon, else for its first part, else for
    its second, which may be a number and yet no port. -/
inductive ForwardRequest.Refused (spec : String) : RequestError → Prop
  | form (colon : ':' ∉ spec.toList) : Refused spec (.pairForm spec)
  | remote {first second : List Char} {fault : Integer.Fault} (parts : Parts spec.toList first second)
      (remote : BadNumeral first fault) : Refused spec (.number .remote (String.ofList first) fault)
  | number {first second : List Char} {n : Int} {fault : Integer.Fault}
      (parts : Parts spec.toList first second) (remote : WideNumeral first n)
      (localPort : BadNumeral second fault) :
      Refused spec (.number .localSide (String.ofList second) fault)
  | range {first second : List Char} {n m : Int} (parts : Parts spec.toList first second)
      (remote : WideNumeral first n) (localPort : WideNumeral second m) (range : m < 0 ∨ 65535 < m) :
      Refused spec (.localRange m)

/-! ## Fields -/

theorem requestFields_eq_iff {fs : List String} :
    requestFields spec = fs ↔ Text.fields ':' spec.toList = fs.map String.toList := by
  unfold requestFields
  constructor
  · rintro rfl
    simp [Function.comp_def]
  · intro h
    simp [h, Function.comp_def]

/-- The two fields of a text with one colon are what stands before it and behind it. -/
theorem pair_iff : Text.fields ':' cs = [first, second] ↔
    cs.count ':' = 1 ∧ cs = first ++ ':' :: second := by
  rw [Text.fields_eq_pair_iff]
  constructor
  · rintro ⟨rfl, hfirst, hsecond⟩
    refine ⟨?_, rfl⟩
    rw [List.count_append, List.count_cons_self, List.count_eq_zero.mpr hfirst,
      List.count_eq_zero.mpr hsecond]
  · rintro ⟨hcount, rfl⟩
    rw [List.count_append, List.count_cons_self] at hcount
    exact ⟨rfl, List.count_eq_zero.mp (by omega), List.count_eq_zero.mp (by omega)⟩

theorem exists_pair (h : cs.count ':' = 1) : ∃ first second, Text.fields ':' cs = [first, second] := by
  have hmem : ':' ∈ cs := List.count_pos_iff.mp (by omega)
  obtain ⟨first, second, hcs⟩ := List.append_of_mem hmem
  exact ⟨first, second, pair_iff.mpr ⟨h, hcs⟩⟩

/-- The first two fields of a text are its first two parts. -/
theorem parts_iff : Parts cs first second ↔ ∃ more, Text.fields ':' cs = first :: second :: more := by
  constructor
  · rintro ⟨more, rfl, hfirst, hsecond, hmore⟩
    rw [Text.fields_append, Text.fields_of_not_mem hfirst]
    cases more with
    | nil =>
      rw [List.append_nil, Text.fields_of_not_mem hsecond]
      exact ⟨[], rfl⟩
    | cons c more =>
      obtain rfl := hmore c rfl
      rw [Text.fields_append, Text.fields_of_not_mem hsecond]
      exact ⟨_, rfl⟩
  · rintro ⟨more, h⟩
    obtain ⟨rest, rfl, hfirst, hrest⟩ := (Text.fields_eq_cons_iff (by simp)).mp h
    by_cases hmore : more = []
    · rw [hmore] at hrest
      obtain ⟨rfl, hsecond⟩ := Text.fields_eq_singleton_iff.mp hrest
      exact ⟨[], by rw [List.append_nil], hfirst, hsecond, by simp⟩
    · obtain ⟨back, rfl, hsecond, -⟩ := (Text.fields_eq_cons_iff hmore).mp hrest
      refine ⟨':' :: back, rfl, hfirst, hsecond, ?_⟩
      intro c hc
      exact (Option.some.inj hc).symm

theorem exists_parts (h : ':' ∈ cs) : ∃ first second, Parts cs first second := by
  obtain ⟨first, rest, rfl, hfirst⟩ := List.eq_append_cons_of_mem h
  cases hrest : Text.fields ':' rest with
  | nil => exact absurd hrest (Text.fields_ne_nil rest)
  | cons second more =>
    refine ⟨first, second, parts_iff.mpr ⟨more, ?_⟩⟩
    rw [Text.fields_append, Text.fields_of_not_mem hfirst, hrest]
    rfl

/-! ## Single requests -/

/-- **A parser reads just what is written**, and refuses everything else as it is to be refused. -/
structure Reads {γ : Type} (parse : String → Except RequestError γ) (Written : String → γ → Prop)
    (Refused : String → RequestError → Prop) : Prop where
  accepts_iff (spec : String) (r : γ) : parse spec = .ok r ↔ Written spec r
  refuses_iff (spec : String) (e : RequestError) : parse spec = .error e ↔ Refused spec e

theorem readWide_eq_ok_iff : Integer.readWide (String.ofList cs) = .ok n ↔ WideNumeral cs n := by
  have hsign : 9223372036854775808 = 0 → cs.head? ≠ some '-' := nofun
  unfold Integer.readWide
  rw [String.toList_ofList, Integer.read_eq_ok_iff, and_iff_left hsign]
  exact ⟨fun ⟨hdenotes, hwide⟩ => ⟨hdenotes, hwide⟩, fun h => ⟨h.denotes, h.wide⟩⟩

theorem readWide_eq_error_iff {fault : Integer.Fault} :
    Integer.readWide (String.ofList cs) = .error fault ↔ BadNumeral cs fault := by
  unfold Integer.readWide
  rw [String.toList_ofList]
  exact Integer.read_eq_error_iff

theorem parsePort_eq_ok_iff {role : PortRole} :
    parsePort role (String.ofList cs) = .ok n ↔ WideNumeral cs n := by
  rw [← readWide_eq_ok_iff]
  unfold parsePort
  cases Integer.readWide (String.ofList cs) <;> simp [Except.mapError]

theorem parsePort_eq_error_iff {role : PortRole} : parsePort role (String.ofList cs) = .error e ↔
    ∃ fault, BadNumeral cs fault ∧ .number role (String.ofList cs) fault = e := by
  simp only [← readWide_eq_error_iff]
  unfold parsePort
  cases Integer.readWide (String.ofList cs) <;> simp [Except.mapError]

/-- A local port is a number in a narrower range. -/
theorem parseLocalPort_eq_ok_iff {p : Port} :
    parseLocalPort (String.ofList cs) = .ok p ↔ WideNumeral cs p.toNat := by
  unfold parseLocalPort
  rw [bind_eq_ok_iff]
  constructor
  · rintro ⟨m, hm, hp⟩
    cases hport : Port.ofInt? m with
    | none =>
      rw [hport] at hp
      exact absurd hp nofun
    | some q =>
      rw [hport] at hp
      obtain rfl := Except.ok.inj hp
      rw [← Port.ofInt?_eq_some_iff.mp hport]
      exact parsePort_eq_ok_iff.mp hm
  · intro h
    refine ⟨p.toNat, parsePort_eq_ok_iff.mpr h, ?_⟩
    rw [Port.ofInt?_eq_some_iff.mpr rfl]
    rfl

/-- It is refused as a number, or for its range. -/
theorem parseLocalPort_eq_error_iff : parseLocalPort (String.ofList cs) = .error e ↔
    (∃ fault, BadNumeral cs fault ∧ .number .localSide (String.ofList cs) fault = e) ∨
      ∃ m, WideNumeral cs m ∧ (m < 0 ∨ 65535 < m) ∧ .localRange m = e := by
  unfold parseLocalPort
  rw [bind_eq_error_iff, parsePort_eq_error_iff]
  refine or_congr Iff.rfl (exists_congr fun m => and_congr parsePort_eq_ok_iff ?_)
  rw [← Port.ofInt?_eq_none_iff]
  cases Port.ofInt? m with
  | none => simp [throw, throwThe, MonadExceptOf.throw]
  | some q => simp [pure, Except.pure]

theorem LevelRequest.parse_pair (h : Text.fields ':' spec.toList = [first, second]) :
    LevelRequest.parse spec = (⟨·, String.ofList second⟩) <$> parsePort .privacy (String.ofList first) := by
  unfold LevelRequest.parse requestFields
  rw [h]
  rfl

theorem LevelRequest.parse_form (h : spec.toList.count ':' ≠ 1) :
    LevelRequest.parse spec = .error (.privacyForm spec) := by
  unfold LevelRequest.parse
  split
  · rename_i port level heq
    rw [requestFields_eq_iff] at heq
    exact absurd (pair_iff.mp heq).1 h
  · rfl

/-- **A request for a level** is read just if it is written as one. -/
theorem LevelRequest.parse_eq_ok_iff {r : LevelRequest} :
    LevelRequest.parse spec = .ok r ↔ LevelRequest.Written spec r := by
  constructor
  · intro h
    by_cases hcolon : spec.toList.count ':' = 1
    · obtain ⟨field, level, hfields⟩ := exists_pair hcolon
      rw [LevelRequest.parse_pair hfields] at h
      obtain ⟨n, hn, rfl⟩ := map_eq_ok_iff.mp h
      refine .intro hcolon ?_ (parsePort_eq_ok_iff.mp hn)
      rw [String.toList_ofList]
      exact (pair_iff.mp hfields).2
    · rw [LevelRequest.parse_form hcolon] at h
      exact absurd h nofun
  · rintro ⟨hcolon, htext, hport⟩
    rw [LevelRequest.parse_pair (pair_iff.mpr ⟨hcolon, htext⟩), map_eq_ok_iff]
    refine ⟨r.port, parsePort_eq_ok_iff.mpr hport, ?_⟩
    rw [String.ofList_toList]

/-- It is refused for the one reason that there is. -/
theorem LevelRequest.parse_eq_error_iff :
    LevelRequest.parse spec = .error e ↔ LevelRequest.Refused spec e := by
  constructor
  · intro h
    by_cases hcolon : spec.toList.count ':' = 1
    · obtain ⟨field, level, hfields⟩ := exists_pair hcolon
      rw [LevelRequest.parse_pair hfields, map_eq_error_iff] at h
      obtain ⟨fault, hfault, rfl⟩ := parsePort_eq_error_iff.mp h
      exact .number hcolon (pair_iff.mp hfields).2 hfault
    · rw [LevelRequest.parse_form hcolon] at h
      obtain rfl := Except.error.inj h
      exact .form hcolon
  · intro h
    cases h with
    | form hcolon => exact LevelRequest.parse_form hcolon
    | number hcolon htext hport =>
      rw [LevelRequest.parse_pair (pair_iff.mpr ⟨hcolon, htext⟩), map_eq_error_iff]
      exact parsePort_eq_error_iff.mpr ⟨_, hport, rfl⟩

/-- What is read of a text with two parts. -/
theorem ForwardRequest.parse_parts (h : Parts spec.toList first second) :
    ForwardRequest.parse spec = (do
      let remote ← parsePort .remote (String.ofList first)
      let localPort ← parseLocalPort (String.ofList second)
      return ⟨remote, localPort⟩) := by
  obtain ⟨more, hfields⟩ := parts_iff.mp h
  unfold ForwardRequest.parse requestFields
  rw [hfields]
  rfl

/-- A text without a colon has one part only. -/
theorem ForwardRequest.parse_form (h : ':' ∉ spec.toList) :
    ForwardRequest.parse spec = .error (.pairForm spec) := by
  unfold ForwardRequest.parse requestFields
  rw [Text.fields_of_not_mem h]
  rfl

/-- **A request for a forward** is read just if it is written as one. -/
theorem ForwardRequest.parse_eq_ok_iff {r : ForwardRequest} :
    ForwardRequest.parse spec = .ok r ↔ ForwardRequest.Written spec r := by
  constructor
  · intro h
    by_cases hcolon : ':' ∈ spec.toList
    · obtain ⟨first, second, hparts⟩ := exists_parts hcolon
      rw [ForwardRequest.parse_parts hparts] at h
      obtain ⟨remote, hremote, h⟩ := bind_eq_ok_iff.mp h
      obtain ⟨localPort, hlocal, h⟩ := bind_eq_ok_iff.mp h
      obtain rfl := Except.ok.inj h
      exact .intro hparts (parsePort_eq_ok_iff.mp hremote) (parseLocalPort_eq_ok_iff.mp hlocal)
    · rw [ForwardRequest.parse_form hcolon] at h
      exact absurd h nofun
  · rintro ⟨hparts, hremote, hlocal⟩
    rw [ForwardRequest.parse_parts hparts, parsePort_eq_ok_iff.mpr hremote]
    rw [parseLocalPort_eq_ok_iff.mpr hlocal]
    rfl

/-- It is refused for the one reason that there is. -/
theorem ForwardRequest.parse_eq_error_iff :
    ForwardRequest.parse spec = .error e ↔ ForwardRequest.Refused spec e := by
  constructor
  · intro h
    by_cases hcolon : ':' ∈ spec.toList
    · obtain ⟨first, second, hparts⟩ := exists_parts hcolon
      rw [ForwardRequest.parse_parts hparts] at h
      rcases bind_eq_error_iff.mp h with hremote | ⟨remote, hremote, h⟩
      · obtain ⟨fault, hfault, rfl⟩ := parsePort_eq_error_iff.mp hremote
        exact .remote hparts hfault
      -- the first part is a number, so the second is at fault
      have hnumeral := parsePort_eq_ok_iff.mp hremote
      rcases bind_eq_error_iff.mp h with hlocal | ⟨localPort, -, h⟩
      · rcases parseLocalPort_eq_error_iff.mp hlocal with ⟨fault, hfault, rfl⟩ | ⟨m, hm, hrange, rfl⟩
        · exact .number hparts hnumeral hfault
        · exact .range hparts hnumeral hm hrange
      · exact absurd h nofun
    · rw [ForwardRequest.parse_form hcolon] at h
      obtain rfl := Except.error.inj h
      exact .form hcolon
  · intro h
    cases h with
    | form hcolon => exact ForwardRequest.parse_form hcolon
    | remote hparts hremote =>
      rw [ForwardRequest.parse_parts hparts, parsePort_eq_error_iff.mpr ⟨_, hremote, rfl⟩]
      rfl
    | number hparts hremote hlocal =>
      rw [ForwardRequest.parse_parts hparts, parsePort_eq_ok_iff.mpr hremote]
      rw [parseLocalPort_eq_error_iff.mpr (Or.inl ⟨_, hlocal, rfl⟩)]
      rfl
    | range hparts hremote hlocal hrange =>
      rw [ForwardRequest.parse_parts hparts, parsePort_eq_ok_iff.mpr hremote]
      rw [parseLocalPort_eq_error_iff.mpr (Or.inr ⟨_, hlocal, hrange, rfl⟩)]
      rfl

theorem LevelRequest.reads : Reads LevelRequest.parse LevelRequest.Written LevelRequest.Refused where
  accepts_iff _ _ := LevelRequest.parse_eq_ok_iff
  refuses_iff _ _ := LevelRequest.parse_eq_error_iff

theorem ForwardRequest.reads :
    Reads ForwardRequest.parse ForwardRequest.Written ForwardRequest.Refused where
  accepts_iff _ _ := ForwardRequest.parse_eq_ok_iff
  refuses_iff _ _ := ForwardRequest.parse_eq_error_iff

/-! ## Lists -/

/-- **The first malformed request**, and what is wrong with it: all requests before it can be read. -/
def FirstMalformed {γ : Type} (parse : String → Except RequestError γ) (specs : List String)
    (e : RequestError) : Prop :=
  ∃ before spec after, specs = before ++ spec :: after ∧
    (∀ other ∈ before, ∃ request, parse other = .ok request) ∧ parse spec = .error e

/-- The first malformed request is the first of all, or the first behind one that can be read. -/
theorem firstMalformed_cons_iff {γ : Type} (parse : String → Except RequestError γ) (spec : String)
    (specs : List String) (e : RequestError) :
    FirstMalformed parse (spec :: specs) e ↔
      parse spec = .error e ∨ ((∃ request, parse spec = .ok request) ∧ FirstMalformed parse specs e) := by
  constructor
  · rintro ⟨before, spec', after, heq, hbefore, hspec⟩
    cases before with
    | nil =>
      obtain ⟨rfl, -⟩ := List.cons.inj heq
      exact Or.inl hspec
    | cons other before =>
      obtain ⟨rfl, rfl⟩ := List.cons.inj heq
      exact Or.inr ⟨hbefore _ List.mem_cons_self, before, spec', after, rfl,
        fun o ho => hbefore o (List.mem_cons_of_mem _ ho), hspec⟩
  · rintro (hspec | ⟨hread, before, spec', after, rfl, hbefore, hspec⟩)
    · exact ⟨[], spec, specs, rfl, fun _ h => absurd h List.not_mem_nil, hspec⟩
    · refine ⟨spec :: before, spec', after, rfl, ?_, hspec⟩
      intro other hother
      rcases List.mem_cons.mp hother with rfl | hother
      · exact hread
      · exact hbefore other hother

/-- A list of requests cannot be read just if one of them is the first malformed one. -/
theorem mapM_eq_error_iff_first {γ : Type} (parse : String → Except RequestError γ) (specs : List String)
    (e : RequestError) : specs.mapM parse = .error e ↔ FirstMalformed parse specs e := by
  induction specs with
  | nil =>
    refine iff_of_false (by simp [pure, Except.pure]) ?_
    rintro ⟨before, spec, after, heq, -, -⟩
    exact absurd heq (by simp)
  | cons spec specs ih =>
    rw [List.mapM_cons, firstMalformed_cons_iff, ← ih]
    cases parse spec with
    | error e' => simp [bind, Except.bind]
    | ok request => cases specs.mapM parse <;> simp [bind, Except.bind, pure, Except.pure]

/-- A list of requests can be read just if each of them can. -/
theorem mapM_eq_ok_iff_forall₂ {γ : Type} (parse : String → Except RequestError γ) (specs : List String)
    (rs : List γ) :
    specs.mapM parse = .ok rs ↔ List.Forall₂ (fun spec r => parse spec = .ok r) specs rs := by
  induction specs generalizing rs with
  | nil =>
    rw [List.mapM_nil, List.forall₂_nil_left_iff]
    exact ⟨fun h => (Except.ok.inj h).symm, fun h => by rw [h]; rfl⟩
  | cons spec specs ih =>
    rw [List.mapM_cons, List.forall₂_cons_left_iff, bind_eq_ok_iff]
    constructor
    · rintro ⟨r, hr, h⟩
      obtain ⟨rs', hrs', h⟩ := bind_eq_ok_iff.mp h
      exact ⟨r, rs', hr, (ih rs').mp hrs', (Except.ok.inj h).symm⟩
    · rintro ⟨r, rs', hr, hrs', rfl⟩
      refine ⟨r, hr, ?_⟩
      rw [(ih rs').mpr hrs']
      rfl

theorem exists_forall₂_iff {γ : Type} {R : String → γ → Prop} (specs : List String) :
    (∃ rs, List.Forall₂ R specs rs) ↔ ∀ spec ∈ specs, ∃ r, R spec r := by
  induction specs with
  | nil => exact iff_of_true ⟨[], .nil⟩ nofun
  | cons spec specs ih =>
    rw [List.forall_mem_cons, ← ih]
    constructor
    · rintro ⟨rs, h⟩
      cases h with
      | cons hr hrs => exact ⟨⟨_, hr⟩, _, hrs⟩
    · rintro ⟨⟨r, hr⟩, rs, hrs⟩
      exact ⟨r :: rs, .cons hr hrs⟩

/-- **A list of requests is read all or nothing.** What is read stands in the order of the texts; what is
    refused is refused for its first bad text, whatever follows it; and two lists, one behind the other, are
    read one after the other. -/
structure ReadsAll {γ : Type} (parseAll : List String → Except RequestError (List γ))
    (Written : String → γ → Prop) (Refused : String → RequestError → Prop) : Prop where
  accepts_iff (specs : List String) (rs : List γ) :
    parseAll specs = .ok rs ↔ List.Forall₂ Written specs rs
  succeeds_iff (specs : List String) :
    (∃ rs, parseAll specs = .ok rs) ↔ ∀ spec ∈ specs, ∃ r, Written spec r
  refuses_iff (specs : List String) (e : RequestError) :
    parseAll specs = .error e ↔ ∃ before spec after, specs = before ++ spec :: after ∧
      (∀ other ∈ before, ∃ r, Written other r) ∧ Refused spec e
  append (xs ys : List String) : parseAll (xs ++ ys) = do
    let front ← parseAll xs
    let back ← parseAll ys
    return front ++ back

/-- What holds of a single text holds of all of them. -/
theorem Reads.all {γ : Type} {parse : String → Except RequestError γ} {Written : String → γ → Prop}
    {Refused : String → RequestError → Prop} (h : Reads parse Written Refused) :
    ReadsAll (fun specs => specs.mapM parse) Written Refused where
  accepts_iff specs rs := by
    simp only [mapM_eq_ok_iff_forall₂, h.accepts_iff]
  succeeds_iff specs := by
    simp only [mapM_eq_ok_iff_forall₂, h.accepts_iff]
    exact exists_forall₂_iff specs
  refuses_iff specs e := by
    rw [mapM_eq_error_iff_first]
    unfold FirstMalformed
    simp only [h.accepts_iff, h.refuses_iff]
  append xs ys := List.mapM_append

/-! ## Printing -/

/-- A request for a level as a text. -/
def LevelRequest.printed (r : LevelRequest) : String := s!"{r.port}:{r.level}"

/-- A request for a forward as a text. -/
def ForwardRequest.printed (r : ForwardRequest) : String := s!"{r.remote}:{r.localPort}"

theorem LevelRequest.written_printed {r : LevelRequest} (hport : Wide r.port)
    (hlevel : ':' ∉ r.level.toList) : LevelRequest.Written r.printed r := by
  have hdenotes := Integer.denotes_toString r.port
  have htext : r.printed.toList = (toString r.port).toList ++ ':' :: r.level.toList := by
    unfold LevelRequest.printed
    rw [String.toList_append, String.toList_append, List.append_assoc]
    rfl
  have hcolon : r.printed.toList.count ':' = 1 := by
    rw [htext, List.count_append, List.count_cons_self, List.count_eq_zero.mpr hlevel,
      List.count_eq_zero.mpr hdenotes.colon_not_mem]
  exact .intro hcolon htext ⟨hdenotes, hport⟩

theorem wide_port (p : Port) : Wide p.toNat := by
  have hp : p.toNat < 65536 := p.toNat_lt
  unfold Wide Integer.InRange
  omega

theorem ForwardRequest.written_printed {r : ForwardRequest} (hremote : Wide r.remote) :
    ForwardRequest.Written r.printed r := by
  have hfirst := Integer.denotes_toString r.remote
  have hsecond := Integer.denotes_port_toString r.localPort
  have htext : r.printed.toList =
      (toString r.remote).toList ++ ':' :: ((toString r.localPort).toList ++ []) := by
    unfold ForwardRequest.printed
    rw [String.toList_append, String.toList_append, List.append_assoc, List.append_nil]
    rfl
  exact .intro ⟨[], htext, hfirst.colon_not_mem, hsecond.colon_not_mem, nofun⟩ ⟨hfirst, hremote⟩
    ⟨hsecond, wide_port r.localPort⟩

theorem ReadsAll.of_printed {γ : Type} {parseAll : List String → Except RequestError (List γ)}
    {Written : String → γ → Prop} {Refused : String → RequestError → Prop}
    (h : ReadsAll parseAll Written Refused) {print : γ → String} {rs : List γ}
    (hrs : ∀ r ∈ rs, Written (print r) r) : parseAll (rs.map print) = .ok rs := by
  rw [h.accepts_iff, List.forall₂_map_left_iff, List.forall₂_same]
  exact hrs

/-- **The parsers of requests accept just their grammar**, all or nothing, and lists of requests are read
    back as they are printed. -/
theorem requests_exact :
    ReadsAll LevelRequest.parseAll LevelRequest.Written LevelRequest.Refused ∧
    ReadsAll ForwardRequest.parseAll ForwardRequest.Written ForwardRequest.Refused ∧
    (∀ rs : List LevelRequest, (∀ r ∈ rs, Wide r.port ∧ ':' ∉ r.level.toList) →
      LevelRequest.parseAll (rs.map LevelRequest.printed) = .ok rs) ∧
    ∀ rs : List ForwardRequest, (∀ r ∈ rs, Wide r.remote) →
      ForwardRequest.parseAll (rs.map ForwardRequest.printed) = .ok rs := by
  have hlevels : ReadsAll LevelRequest.parseAll LevelRequest.Written LevelRequest.Refused :=
    LevelRequest.reads.all
  have hforwards : ReadsAll ForwardRequest.parseAll ForwardRequest.Written ForwardRequest.Refused :=
    ForwardRequest.reads.all
  refine ⟨hlevels, hforwards, ?_, ?_⟩
  · intro rs hrs
    exact hlevels.of_printed fun r hr => LevelRequest.written_printed (hrs r hr).1 (hrs r hr).2
  · intro rs hrs
    exact hforwards.of_printed fun r hr => ForwardRequest.written_printed (hrs r hr)

/-- The ends of both ranges, as they are printed. -/
theorem requests_exact_at_ends :
    LevelRequest.parseAll ["-9223372036854775808:public", "9223372036854775807:"] =
      .ok [⟨-9223372036854775808, "public"⟩, ⟨9223372036854775807, ""⟩] ∧
    ForwardRequest.parseAll ["-9223372036854775808:65535", "9223372036854775807:0"] =
      .ok [⟨-9223372036854775808, 65535⟩, ⟨9223372036854775807, 0⟩] := by
  obtain ⟨-, -, hlevels, hforwards⟩ := requests_exact
  constructor
  · refine hlevels [⟨-9223372036854775808, "public"⟩, ⟨9223372036854775807, ""⟩] ?_
    simp [Wide, Integer.InRange]
  · refine hforwards [⟨-9223372036854775808, 65535⟩, ⟨9223372036854775807, 0⟩] ?_
    simp [Wide, Integer.InRange]

example : LevelRequest.parseAll ["+007:org"] = .ok [⟨7, "org"⟩] := by rfl
example : LevelRequest.parseAll ["7:a:b", "x:"] = .error (.privacyForm "7:a:b") := by rfl

end SharedPorts
