import Mathlib.Data.List.Forall2
import SharedPorts.Proofs.Config.Codec
import SharedPorts.Proofs.Json.Members

/-!
# `SharedPorts.Proofs.Config.Fields` — what objects say about fields

A configuration and each of its workspaces are decoded field by field. Whether an object is decoded, and to
what, is told here by its members alone: a field has the value of the only member under its key, or its
default where there is none, and no other member matters. The levels of a workspace are told in the same
way, but there the last member of a port counts.

## Contents
- **Fields.** `Says`, and how it depends on one member among others.
- **Decoding.** `membersOf?_eq_some_iff`; `Config.ofTree?_object_iff` and `Entry.ofTree?_object_iff`.
- **Workspaces.** `workspaces?_amid_iff`, one workspace among others.
- **Levels.** `exists_levels?` and `get?_of_levels?`.
-/

namespace SharedPorts

open Json

variable {α : Type} {members members' front back : Members} {key : Literal} {name : String} {t t' : Tree}
  {value? : Tree → Option α} {default : Option α} {a : α}

/-! ## Fields -/

/-- **What an object says about a field**: the value of its only member under the key, or the default where
    there is none. -/
inductive Says (members : Members) (name : String) (value? : Tree → Option α) (default : Option α) (a : α) :
    Prop
  | missing (h : members.under name = []) (hdefault : default = some a)
  | given {t : Tree} (h : members.under name = [t]) (hvalue : value? t = some a)

/-- By a member under the key, if it is the only one. -/
theorem says_amid_iff (hkey : key.text? = some name) :
    Says (front ++ (key, t) :: back) name value? default a ↔
      Members.under (front ++ back) name = [] ∧ value? t = some a := by
  rw [under_append, List.append_eq_nil_iff]
  constructor
  · intro h
    cases h with
    | missing h _ =>
      rw [under_amid_of_key hkey] at h
      exact absurd h (by simp)
    | given h hvalue =>
      rw [under_amid_of_key hkey, List.append_eq_singleton_iff] at h
      rcases h with ⟨hfront, hback⟩ | ⟨-, hback⟩
      · obtain ⟨rfl, hnone⟩ := List.cons.inj hback
        exact ⟨⟨hfront, hnone⟩, hvalue⟩
      · exact absurd hback (by simp)
  · rintro ⟨⟨hfront, hback⟩, hvalue⟩
    exact .given (by rw [under_amid_of_key hkey, hfront, hback, List.nil_append]) hvalue

/-- A member under another key does not matter. -/
theorem says_amid_of_ne (hkey : key.text? ≠ some name) :
    Says (front ++ (key, t) :: back) name value? default a ↔ Says (front ++ back) name value? default a := by
  constructor
  · intro h
    cases h with
    | missing h hdefault => exact .missing (by rw [← h, under_amid_of_ne hkey]) hdefault
    | given h hvalue => exact .given (by rw [← h, under_amid_of_ne hkey]) hvalue
  · intro h
    cases h with
    | missing h hdefault => exact .missing (by rw [← h, under_amid_of_ne hkey]) hdefault
    | given h hvalue => exact .given (by rw [← h, under_amid_of_ne hkey]) hvalue

/-- Nor does another value of it. -/
theorem Says.amid (h : Says (front ++ (key, t) :: back) name value? default a) (hkey : key.text? ≠ some name) :
    Says (front ++ (key, t') :: back) name value? default a :=
  (says_amid_of_ne hkey).mpr ((says_amid_of_ne hkey).mp h)

/-- Nor does the order of the members. -/
theorem Says.perm (hp : members.Perm members') (h : Says members name value? default a) :
    Says members' name value? default a := by
  have hunder : (members.under name).Perm (members'.under name) := hp.filterMap _
  cases h with
  | missing h hdefault =>
    rw [h, List.nil_perm] at hunder
    exact .missing hunder hdefault
  | given h hvalue =>
    rw [h, List.singleton_perm] at hunder
    exact .given hunder.symm hvalue

/-- As a value that may be missing. -/
theorem says_iff_exists : Says members name value? default a ↔
    ∃ field : Option Tree, members.under name = field.toList ∧ field.elim default value? = some a := by
  constructor
  · intro h
    cases h with
    | missing h hdefault => exact ⟨none, h, hdefault⟩
    | given h hvalue => exact ⟨some _, h, hvalue⟩
  · rintro ⟨_ | t, h, ha⟩
    · exact .missing h ha
    · exact .given h ha

/-! ## Decoding -/

/-- The members of an object with their keys, if these are texts. -/
theorem mapM_text?_eq_some {named : List (String × Tree)}
    (h : members.mapM (fun (key, t) => (·, t) <$> key.text?) = some named) :
    members.Named ∧ ∀ name, (named.filter (·.1 == name)).map (·.2) = members.under name := by
  rw [mapM_eq_some_iff] at h
  induction members generalizing named with
  | nil =>
    obtain rfl := List.map_eq_nil_iff.mp h.symm
    exact ⟨fun _ hm => absurd hm List.not_mem_nil, fun _ => rfl⟩
  | cons m members ih =>
    obtain ⟨key, t⟩ := m
    cases named with
    | nil => exact absurd h (by simp)
    | cons n named =>
      obtain ⟨hhead, htail⟩ := List.cons.inj h
      obtain ⟨name, hname, rfl⟩ := Option.map_eq_some_iff.mp hhead
      obtain ⟨hnamed, hunder⟩ := ih htail
      refine ⟨fun m hm => ?_, fun k => ?_⟩
      · rcases List.mem_cons.mp hm with rfl | hm
        · exact ⟨name, hname⟩
        · exact hnamed m hm
      · by_cases hk : name = k
        · subst hk
          rw [under_cons_of_key hname, ← hunder]
          simp
        · rw [under_cons_of_ne (by simpa [hname] using hk), ← hunder]
          simp [hk]

theorem exists_mapM_text? (h : members.Named) :
    ∃ named, members.mapM (fun (key, t) => (·, t) <$> key.text?) = some named := by
  induction members with
  | nil => exact ⟨[], rfl⟩
  | cons m members ih =>
    obtain ⟨key, t⟩ := m
    obtain ⟨name, hname⟩ := h (key, t) List.mem_cons_self
    obtain ⟨named, hnamed⟩ := ih (fun m hm => h m (List.mem_cons_of_mem _ hm))
    refine ⟨(name, t) :: named, ?_⟩
    rw [List.mapM_cons, hnamed]
    simp [hname]

/-- A value that is the only one, or missing. -/
theorem only_eq_some_iff (named : List (String × Tree)) (field : Option Tree) :
    (match named with
      | [] => some none
      | [(_, t)] => some (some t)
      | _ => none) = some field ↔ named.map (·.2) = field.toList := by
  rcases named with _ | ⟨⟨name, t⟩, _ | ⟨n, named⟩⟩ <;> cases field <;> simp

/-- Two lists correspond in one way if they do in another. -/
theorem map_eq_map_iff_of {β γ δ ε : Type} {f : β → δ} {g : γ → δ} {f' : β → ε} {g' : γ → ε} {xs : List β}
    {ys : List γ} (h : ∀ x y, f x = g y ↔ f' x = g' y) : xs.map f = ys.map g ↔ xs.map f' = ys.map g' := by
  simp only [← List.forall₂_eq_eq_eq, List.forall₂_map_left_iff, List.forall₂_map_right_iff, h]

/-- **The members asked for** are found where all keys are texts and no key asked for comes twice. -/
theorem membersOf?_eq_some_iff {keys : List String} {fields : List (Option Tree)} :
    membersOf? keys members = some fields ↔
      members.Named ∧ keys.map members.under = fields.map Option.toList := by
  have hfields : ∀ {named : List (String × Tree)},
      (∀ name, (named.filter (·.1 == name)).map (·.2) = members.under name) →
        (keys.mapM (fun key =>
          match named.filter (·.1 == key) with
          | [] => some none
          | [(_, t)] => some (some t)
          | _ => none) = some fields ↔ keys.map members.under = fields.map Option.toList) := by
    intro named hunder
    rw [mapM_eq_some_iff]
    refine map_eq_map_iff_of (fun key field => ?_)
    rw [← hunder]
    exact only_eq_some_iff _ _
  unfold membersOf?
  rw [Option.bind_eq_bind, Option.bind_eq_some_iff]
  constructor
  · rintro ⟨named, hnamed, h⟩
    obtain ⟨hall, hunder⟩ := mapM_text?_eq_some hnamed
    exact ⟨hall, (hfields hunder).mp h⟩
  · rintro ⟨hall, h⟩
    obtain ⟨named, hnamed⟩ := exists_mapM_text? hall
    exact ⟨named, hnamed, (hfields (mapM_text?_eq_some hnamed).2).mpr h⟩

theorem orDefault_eq_elim {d : α} (field : Option Tree) : orDefault d value? field = field.elim (some d) value? := by
  cases field <;> rfl

/-- **The configuration in an object**, by what the object says about each field. -/
theorem Config.ofTree?_object_iff {c : Config} :
    Config.ofTree? (.object members) = some c ↔ members.Named ∧
      Says members "previewDomain" stringOf? (some defaultDomain) c.previewDomain ∧
      Says members "bindAddress" addressOf? (some .loopback) c.bindAddress ∧
      Says members "workspaces" workspaces? (some []) c.workspaces := by
  constructor
  · intro h
    unfold Config.ofTree? at h
    split at h
    · rename_i domain address workspaces hfields
      obtain ⟨hnamed, hunder⟩ := membersOf?_eq_some_iff.mp hfields
      simp only [List.map_cons, List.map_nil, List.cons.injEq, and_true] at hunder
      simp only [orDefault_eq_elim, Option.bind_eq_bind, Option.bind_eq_some_iff, Option.pure_def,
        Option.some.injEq] at h
      obtain ⟨_, hdomain, _, haddress, _, hworkspaces, rfl⟩ := h
      exact ⟨hnamed, says_iff_exists.mpr ⟨domain, hunder.1, hdomain⟩,
        says_iff_exists.mpr ⟨address, hunder.2.1, haddress⟩,
        says_iff_exists.mpr ⟨workspaces, hunder.2.2, hworkspaces⟩⟩
    · exact absurd h nofun
  · rintro ⟨hnamed, hdomain, haddress, hworkspaces⟩
    obtain ⟨domain, hunder₁, hdomain⟩ := says_iff_exists.mp hdomain
    obtain ⟨address, hunder₂, haddress⟩ := says_iff_exists.mp haddress
    obtain ⟨workspaces, hunder₃, hworkspaces⟩ := says_iff_exists.mp hworkspaces
    have hfields : fieldsOf? ["previewDomain", "bindAddress", "workspaces"] (.object members) =
        some [domain, address, workspaces] :=
      membersOf?_eq_some_iff.mpr ⟨hnamed, by simp [hunder₁, hunder₂, hunder₃]⟩
    unfold Config.ofTree?
    rw [hfields]
    simp only [orDefault_eq_elim, hdomain, haddress, hworkspaces, Option.bind_eq_bind, Option.bind_some,
      Option.pure_def]

/-- **The workspace in an object**, of which name and root have no default. -/
theorem Entry.ofTree?_object_iff {e : Entry} :
    Entry.ofTree? (.object members) = some e ↔ members.Named ∧
      Says members "name" stringOf? none e.name ∧ Says members "root" stringOf? none e.root ∧
      Says members "host" stringOf? (some defaultHost) e.host ∧
      Says members "privacy" levels? (some .empty) e.privacy := by
  constructor
  · intro h
    unfold Entry.ofTree? at h
    split at h
    · rename_i name root host privacy hfields
      obtain ⟨hnamed, hunder⟩ := membersOf?_eq_some_iff.mp hfields
      simp only [List.map_cons, List.map_nil, List.cons.injEq, and_true] at hunder
      simp only [orDefault_eq_elim, Option.bind_eq_bind, Option.bind_eq_some_iff, Option.pure_def,
        Option.some.injEq] at h
      obtain ⟨_, hname, _, hroot, _, hhost, _, hprivacy, rfl⟩ := h
      exact ⟨hnamed, .given hunder.1 hname, .given hunder.2.1 hroot,
        says_iff_exists.mpr ⟨host, hunder.2.2.1, hhost⟩,
        says_iff_exists.mpr ⟨privacy, hunder.2.2.2, hprivacy⟩⟩
    · exact absurd h nofun
  · rintro ⟨hnamed, hname, hroot, hhost, hprivacy⟩
    obtain ⟨host, hunder₃, hhost⟩ := says_iff_exists.mp hhost
    obtain ⟨privacy, hunder₄, hprivacy⟩ := says_iff_exists.mp hprivacy
    cases hname with
    | missing _ hdefault => exact absurd hdefault nofun
    | @given name hunder₁ hname =>
      cases hroot with
      | missing _ hdefault => exact absurd hdefault nofun
      | @given root hunder₂ hroot =>
        have hfields : fieldsOf? ["name", "root", "host", "privacy"] (.object members) =
            some [some name, some root, host, privacy] :=
          membersOf?_eq_some_iff.mpr ⟨hnamed, by simp [hunder₁, hunder₂, hunder₃, hunder₄]⟩
        unfold Entry.ofTree?
        rw [hfields]
        simp only [orDefault_eq_elim, hname, hroot, hhost, hprivacy, Option.bind_eq_bind, Option.bind_some,
          Option.pure_def]

/-! ## Workspaces -/

/-- **One workspace among others** is decoded by itself, and stands in its place. -/
theorem workspaces?_amid_iff {before after : List Tree} {es : List Entry} :
    workspaces? (.array (before ++ t :: after)) = some es ↔
      ∃ front e back, es = front ++ e :: back ∧ workspaces? (.array before) = some front ∧
        Entry.ofTree? t = some e ∧ workspaces? (.array after) = some back := by
  unfold workspaces?
  simp only [mapM_eq_some_iff]
  rw [List.map_append, List.map_cons]
  constructor
  · intro h
    obtain ⟨front, tail, rfl, hfront, htail⟩ := List.append_eq_map_iff.mp h
    obtain ⟨e, back, rfl, he, hback⟩ := List.map_eq_cons_iff.mp htail
    exact ⟨front, e, back, rfl, hfront.symm, he.symm, hback.symm⟩
  · rintro ⟨front, e, back, rfl, hfront, he, hback⟩
    rw [List.map_append, List.map_cons, hfront, he, hback]

theorem length_of_workspaces? {items : List Tree} {es : List Entry} (h : workspaces? (.array items) = some es) :
    es.length = items.length := by
  have hlength := congrArg List.length (mapM_eq_some_iff.mp h)
  simpa using hlength.symm

/-! ## Levels -/

/-- A key that is written without escapes denotes what it is written as. -/
theorem bytes?_of_plain? {bs : Bytes} (h : key.plain? = some bs) : key.bytes? = some bs := by
  induction key generalizing bs with
  | nil => exact h
  | cons p key ih =>
    cases p with
    | byte b =>
      obtain ⟨bs, hbs, rfl⟩ := Option.map_eq_some_iff.mp h
      show (b :: ·) <$> Literal.bytes? key = _
      rw [ih hbs]
      rfl
    | escape e => exact absurd h nofun
    | unit u => exact absurd h nofun

/-- The key of a port denotes its numeral. -/
theorem text?_of_portOfKey? {p : Port} (h : portOfKey? key = some p) : key.text? = some (toString p.toNat) := by
  unfold portOfKey? at h
  simp only [Option.bind_eq_bind, Option.bind_eq_some_iff] at h
  obtain ⟨text, ⟨bs, hplain, hdecode⟩, q, -, h⟩ := h
  split at h
  · rename_i htext
    obtain rfl := Option.some.inj h
    unfold Literal.text?
    rw [bytes?_of_plain? hplain, Option.bind_some, hdecode, htext]
  · exact absurd h nofun

theorem port_eq_of_toString {p q : Port} (h : toString p.toNat = toString q.toNat) : p = q := by
  have hparse := Port.parse?_toString p
  rw [h, Port.parse?_toString] at hparse
  exact (Option.some.inj hparse).symm

/-- A member sets a level: it has a port for its key, and a text for its value. -/
def SetsLevel (m : Literal × Tree) (e : Port × String) : Prop :=
  portOfKey? m.1 = some e.1 ∧ stringOf? m.2 = some e.2

/-- The levels in an object are those that its members set, one after the other. -/
theorem levels?_eq_some_iff {levels : PortLevels} :
    levels? (.object members) = some levels ↔
      ∃ es, List.Forall₂ SetsLevel members es ∧ PortLevels.ofList es = levels := by
  have hmember : ∀ m e, (do
      let port ← portOfKey? m.1
      let level ← stringOf? m.2
      return (port, level)) = some e ↔ SetsLevel m e := by
    rintro m ⟨p, l⟩
    simp only [SetsLevel, Option.bind_eq_bind, Option.bind_eq_some_iff, Option.pure_def, Option.some.injEq,
      Prod.mk.injEq]
    constructor
    · rintro ⟨_, hp, _, hl, rfl, rfl⟩
      exact ⟨hp, hl⟩
    · rintro ⟨hp, hl⟩
      exact ⟨p, hp, l, hl, rfl, rfl⟩
  have hall : ∀ es, members.mapM (fun m => do
      let port ← portOfKey? m.1
      let level ← stringOf? m.2
      return (port, level)) = some es ↔ List.Forall₂ SetsLevel members es := by
    intro es
    rw [mapM_eq_some_iff, ← List.forall₂_eq_eq_eq, List.forall₂_map_left_iff, List.forall₂_map_right_iff]
    simp only [hmember]
  simp only [← hall]
  exact Option.map_eq_some_iff

/-- Any members that set levels are levels, however often a port comes. -/
theorem exists_levels? (h : ∀ m ∈ members, ∃ e, SetsLevel m e) :
    ∃ levels, levels? (.object members) = some levels := by
  have hall : ∃ es, List.Forall₂ SetsLevel members es := by
    induction members with
    | nil => exact ⟨[], .nil⟩
    | cons m members ih =>
      obtain ⟨e, he⟩ := h m List.mem_cons_self
      obtain ⟨es, hes⟩ := ih (fun m hm => h m (List.mem_cons_of_mem _ hm))
      exact ⟨e :: es, .cons he hes⟩
  obtain ⟨es, hes⟩ := hall
  exact ⟨_, levels?_eq_some_iff.mpr ⟨es, hes, rfl⟩⟩

/-- Levels set on top of others: for each port the last member counts, and otherwise the level it had. -/
theorem get?_foldl_insert {es : List (Port × String)} (h : List.Forall₂ SetsLevel members es)
    (levels : PortLevels) {p : Port} {l : String} :
    (es.foldl (fun levels e => levels.insert e.1 e.2) levels).get? p = some l ↔
      (∃ t, LastUnder members (toString p.toNat) t ∧ stringOf? t = some l) ∨
        (¬ members.Has (toString p.toNat) ∧ levels.get? p = some l) := by
  induction h generalizing levels with
  | nil =>
    have hnone : ¬ Members.Has [] (toString p.toNat) := fun ⟨_, hm, _⟩ => absurd hm List.not_mem_nil
    constructor
    · exact fun hl => Or.inr ⟨hnone, hl⟩
    · rintro (⟨t, hlast, -⟩ | ⟨-, hl⟩)
      · exact absurd hlast.has hnone
      · exact hl
  | @cons m e members es hm _ ih =>
    obtain ⟨key, t⟩ := m
    obtain ⟨q, l'⟩ := e
    obtain ⟨hq, hl'⟩ : portOfKey? key = some q ∧ stringOf? t = some l' := hm
    have hkey := text?_of_portOfKey? hq
    rw [List.foldl_cons, ih]
    simp only [lastUnder_cons_iff, has_cons_iff, hkey, Option.some.injEq]
    by_cases hp : p = q
    · subst hp
      rw [PortLevels.get?_insert_self]
      constructor
      · rintro (⟨u, hu, hl⟩ | ⟨hnot, hl⟩)
        · exact Or.inl ⟨u, Or.inl hu, hl⟩
        · exact Or.inl ⟨t, Or.inr ⟨rfl, rfl, hnot⟩, hl'.trans hl⟩
      · rintro (⟨u, hu | ⟨-, rfl, hnot⟩, hl⟩ | ⟨hnot, -⟩)
        · exact Or.inl ⟨u, hu, hl⟩
        · exact Or.inr ⟨hnot, hl'.symm.trans hl⟩
        · exact absurd (Or.inl rfl) hnot
    · have hne : toString q.toNat ≠ toString p.toNat := fun h => hp (port_eq_of_toString h).symm
      rw [PortLevels.get?_insert_of_ne _ _ hp]
      simp only [hne, false_and, or_false, false_or]

/-- **The level of a port** is the one that its last member sets. -/
theorem get?_of_levels? {levels : PortLevels} (h : levels? (.object members) = some levels) {p : Port}
    {l : String} :
    levels.get? p = some l ↔ ∃ t, LastUnder members (toString p.toNat) t ∧ stringOf? t = some l := by
  obtain ⟨es, hes, rfl⟩ := levels?_eq_some_iff.mp h
  unfold PortLevels.ofList
  rw [get?_foldl_insert hes]
  exact or_iff_left (fun hl => absurd hl.2 nofun)

end SharedPorts
