import Mathlib.Logic.Relation
import SharedPorts.Proofs.Config.Fields
import SharedPorts.Proofs.Config.Refinement
import SharedPorts.Proofs.Json.Grammar

/-!
# `SharedPorts.Proofs.Config.Content` — configurations are read by their content

The file of a store may be written by hand. What is loaded from it then depends on what its text says, not on
how it says it: neither the order of members nor members that are no fields change it, nor does it matter
whether a default is written out. Two members for one field are an error, but among the levels of a workspace
the last one of a port counts.

The texts are told apart by their documents. As a document has all its texts by the grammar, what is said of
documents here is said of every text of them, with whatever blanks and spellings.

## Contents
- **Edits.** `EditsMembers` and `Config.Edits`; `Config.Edits.ofTree?`, what an edit leaves.
- **Places.** `WorkspacePlace` and `PrivacyPlace`, where something stands within a document.
- **Repetitions.** `RepeatsMember` and `Config.Repeats`.
- **Files.** `Store.Holds`, and the main statement `Store.load_by_content`.
-/

namespace SharedPorts

open Json

variable {α : Type} {members members' : Members} {name : String} {t t' : Tree} {value? : Tree → Option α}
  {default : Option α} {a : α} {known : List String} {isDefault : String → Tree → Prop} {c : Config} {e : Entry}

/-! ## Edits -/

/-- The fields of a configuration. -/
def Config.fields : List String := ["previewDomain", "bindAddress", "workspaces"]

/-- The fields of a workspace. -/
def Entry.fields : List String := ["name", "root", "host", "privacy"]

/-- A field of a configuration has this value where it is missing. -/
def Config.IsDefault (name : String) (t : Tree) : Prop :=
  (name = "previewDomain" ∧ stringOf? t = some defaultDomain) ∨
  (name = "bindAddress" ∧ addressOf? t = some .loopback) ∨
  (name = "workspaces" ∧ workspaces? t = some [])

/-- A field of a workspace has this value where it is missing. -/
def Entry.IsDefault (name : String) (t : Tree) : Prop :=
  (name = "host" ∧ stringOf? t = some defaultHost) ∨ (name = "privacy" ∧ levels? t = some .empty)

/-- **An edit of an object** that leaves its content: the members in another order, a new member that is no
    field, with any value, or no longer a member that only writes out a default. -/
inductive EditsMembers (known : List String) (isDefault : String → Tree → Prop) : Members → Members → Prop
  | permute {members members' : Members} (h : List.Perm members members') :
      EditsMembers known isDefault members members'
  | insert (front back : Members) {key : Literal} {name : String} (t : Tree) (hkey : key.text? = some name)
      (hname : name ∉ known) : EditsMembers known isDefault (front ++ back) (front ++ (key, t) :: back)
  | leaveOut (front back : Members) {key : Literal} {name : String} {t : Tree} (hkey : key.text? = some name)
      (hdefault : isDefault name t) :
      EditsMembers known isDefault (front ++ (key, t) :: back) (front ++ back)

theorem EditsMembers.named (h : EditsMembers known isDefault members members') (hn : members.Named) :
    members'.Named := by
  cases h with
  | permute hp => exact fun m hm => hn m (hp.mem_iff.mpr hm)
  | insert front back t hkey _ => exact named_amid_iff.mpr ⟨⟨_, hkey⟩, hn⟩
  | leaveOut front back _ _ => exact (named_amid_iff.mp hn).2

/-- **No field sees an edit**, if where it is missing it has the value that may be left out. -/
theorem EditsMembers.says (h : EditsMembers known isDefault members members') (hname : name ∈ known)
    (hdefault : ∀ t a, isDefault name t → value? t = some a → default = some a)
    (hs : Says members name value? default a) : Says members' name value? default a := by
  cases h with
  | permute hp => exact hs.perm hp
  | @insert front back key name' t hkey hnew =>
    have hne : name' ≠ name := by
      rintro rfl
      exact hnew hname
    exact (says_amid_of_ne (text?_ne hkey hne)).mpr hs
  | @leaveOut front back key name' t hkey hvalue =>
    by_cases heq : name' = name
    · subst heq
      obtain ⟨hunder, ha⟩ := (says_amid_iff hkey).mp hs
      exact .missing hunder (hdefault t a hvalue ha)
    · exact (says_amid_of_ne (text?_ne hkey heq)).mp hs

/-- A workspace is decoded after an edit as before it. -/
theorem EditsMembers.ofTree?_entry (h : EditsMembers Entry.fields Entry.IsDefault members members')
    (he : Entry.ofTree? (.object members) = some e) : Entry.ofTree? (.object members') = some e := by
  obtain ⟨hnamed, hname, hroot, hhost, hprivacy⟩ := Entry.ofTree?_object_iff.mp he
  refine Entry.ofTree?_object_iff.mpr ⟨h.named hnamed, h.says (by decide) ?_ hname, h.says (by decide) ?_ hroot,
    h.says (by decide) ?_ hhost, h.says (by decide) ?_ hprivacy⟩
  · intro t a hd
    exact absurd hd (by simp [Entry.IsDefault])
  · intro t a hd
    exact absurd hd (by simp [Entry.IsDefault])
  · intro t a hd ha
    have hhost : stringOf? t = some defaultHost := by simpa [Entry.IsDefault] using hd
    exact hhost.symm.trans ha
  · intro t a hd ha
    have hprivacy : levels? t = some .empty := by simpa [Entry.IsDefault] using hd
    exact hprivacy.symm.trans ha

/-- And so is a configuration. -/
theorem EditsMembers.ofTree?_config (h : EditsMembers Config.fields Config.IsDefault members members')
    (hc : Config.ofTree? (.object members) = some c) : Config.ofTree? (.object members') = some c := by
  obtain ⟨hnamed, hdomain, haddress, hworkspaces⟩ := Config.ofTree?_object_iff.mp hc
  refine Config.ofTree?_object_iff.mpr ⟨h.named hnamed, h.says (by decide) ?_ hdomain,
    h.says (by decide) ?_ haddress, h.says (by decide) ?_ hworkspaces⟩
  · intro t a hd ha
    have hvalue : stringOf? t = some defaultDomain := by simpa [Config.IsDefault] using hd
    exact hvalue.symm.trans ha
  · intro t a hd ha
    have hvalue : addressOf? t = some .loopback := by simpa [Config.IsDefault] using hd
    exact hvalue.symm.trans ha
  · intro t a hd ha
    have hvalue : workspaces? t = some [] := by simpa [Config.IsDefault] using hd
    exact hvalue.symm.trans ha

/-! ## Places -/

/-- **A place for a workspace** in the document of a configuration: what stands around it. -/
structure WorkspacePlace where
  front : Members
  key : Literal
  before : List Tree
  after : List Tree
  back : Members
  isKey : key.text? = some "workspaces"

/-- The document with a workspace in the place. -/
def WorkspacePlace.put (place : WorkspacePlace) (t : Tree) : Tree :=
  .object (place.front ++ (place.key, .array (place.before ++ t :: place.after)) :: place.back)

/-- **A place for levels** in the members of a workspace: what stands around them. -/
structure PrivacyPlace where
  front : Members
  key : Literal
  back : Members
  isKey : key.text? = some "privacy"

/-- The members with an object of levels in the place. -/
def PrivacyPlace.put (place : PrivacyPlace) (levels : Members) : Members :=
  place.front ++ (place.key, .object levels) :: place.back

/-- **The workspace in a place** is one of those of the configuration, and another one in its place is
    taken for it. -/
theorem WorkspacePlace.ofTree?_put {place : WorkspacePlace} (h : Config.ofTree? (place.put t) = some c) :
    ∃ es e es', c.workspaces = es ++ e :: es' ∧ es.length = place.before.length ∧ Entry.ofTree? t = some e ∧
      ∀ t' e', Entry.ofTree? t' = some e' →
        Config.ofTree? (place.put t') = some { c with workspaces := es ++ e' :: es' } := by
  obtain ⟨hnamed, hdomain, haddress, hworkspaces⟩ := Config.ofTree?_object_iff.mp h
  obtain ⟨hunder, hvalue⟩ := (says_amid_iff place.isKey).mp hworkspaces
  obtain ⟨es, e, es', hes, hbefore, he, hafter⟩ := workspaces?_amid_iff.mp hvalue
  refine ⟨es, e, es', hes, length_of_workspaces? hbefore, he, fun t' e' he' => ?_⟩
  have hvalue' := workspaces?_amid_iff.mpr ⟨es, e', es', rfl, hbefore, he', hafter⟩
  exact Config.ofTree?_object_iff.mpr ⟨named_amid_iff.mpr (named_amid_iff.mp hnamed),
    hdomain.amid (text?_ne place.isKey (by decide)), haddress.amid (text?_ne place.isKey (by decide)),
    (says_amid_iff place.isKey).mpr ⟨hunder, hvalue'⟩⟩

/-- Other levels in their place are those of the workspace, and change nothing else. -/
theorem PrivacyPlace.ofTree?_put {place : PrivacyPlace} {ps ps' : Members} {levels : PortLevels}
    (h : Entry.ofTree? (.object (place.put ps)) = some e) (hl : levels? (.object ps') = some levels) :
    Entry.ofTree? (.object (place.put ps')) = some { e with privacy := levels } := by
  obtain ⟨hnamed, hname, hroot, hhost, hprivacy⟩ := Entry.ofTree?_object_iff.mp h
  have hunder := ((says_amid_iff place.isKey).mp hprivacy).1
  exact Entry.ofTree?_object_iff.mpr ⟨named_amid_iff.mpr (named_amid_iff.mp hnamed),
    hname.amid (text?_ne place.isKey (by decide)), hroot.amid (text?_ne place.isKey (by decide)),
    hhost.amid (text?_ne place.isKey (by decide)), (says_amid_iff place.isKey).mpr ⟨hunder, hl⟩⟩

/-- **An edit of a document** that leaves its content: in the configuration, or in one of its workspaces. -/
inductive Config.Edits : Tree → Tree → Prop
  | settings {members members' : Members} (h : EditsMembers Config.fields Config.IsDefault members members') :
      Edits (.object members) (.object members')
  | workspace (place : WorkspacePlace) {members members' : Members}
      (h : EditsMembers Entry.fields Entry.IsDefault members members') :
      Edits (place.put (.object members)) (place.put (.object members'))

/-- **One edit** leaves the configuration. -/
theorem Config.Edits.ofTree? (h : Config.Edits t t') (hc : Config.ofTree? t = some c) :
    Config.ofTree? t' = some c := by
  cases h with
  | settings h => exact h.ofTree?_config hc
  | workspace place h =>
    obtain ⟨es, e, es', hes, -, he, hput⟩ := WorkspacePlace.ofTree?_put hc
    rw [hput _ e (h.ofTree?_entry he), ← hes]

/-- And so do any edits, one after the other. -/
theorem Config.ofTree?_of_edits (h : Relation.ReflTransGen Config.Edits t t') (hc : Config.ofTree? t = some c) :
    Config.ofTree? t' = some c := by
  induction h with
  | refl => exact hc
  | tail _ hedit ih => exact hedit.ofTree? ih

/-! ## Repetitions -/

/-- Two members are for one field. -/
inductive RepeatsMember (known : List String) : Members → Prop
  | intro {name : String} (hname : name ∈ known) (front middle back : Members) {key key' : Literal} (t t' : Tree)
      (hkey : key.text? = some name) (hkey' : key'.text? = some name) :
      RepeatsMember known (front ++ (key, t) :: (middle ++ (key', t') :: back))

/-- **A document repeats a field** of the configuration, or of one of its workspaces. -/
inductive Config.Repeats : Tree → Prop
  | settings {members : Members} (h : RepeatsMember Config.fields members) : Repeats (.object members)
  | workspace (place : WorkspacePlace) {members : Members} (h : RepeatsMember Entry.fields members) :
      Repeats (place.put (.object members))

/-- Of a field that is repeated, nothing is said. -/
theorem RepeatsMember.exists_not_says (h : RepeatsMember known members) :
    ∃ name ∈ known, ∀ {α : Type} (value? : Tree → Option α) (default : Option α) (a : α),
      ¬ Says members name value? default a := by
  obtain ⟨hname, front, middle, back, t, t', hkey, hkey'⟩ := h
  refine ⟨_, hname, fun value? default a hs => ?_⟩
  have hunder := ((says_amid_iff hkey).mp hs).1
  rw [under_append, under_amid_of_key hkey'] at hunder
  simp at hunder

/-- **A document that repeats a field** is no configuration. -/
theorem Config.Repeats.ofTree?_eq_none (h : Config.Repeats t) : Config.ofTree? t = none := by
  rw [Option.eq_none_iff_forall_ne_some]
  intro c hc
  cases h with
  | settings h =>
    obtain ⟨name, hname, hnot⟩ := h.exists_not_says
    obtain ⟨-, hdomain, haddress, hworkspaces⟩ := Config.ofTree?_object_iff.mp hc
    simp only [Config.fields, List.mem_cons, List.not_mem_nil, or_false] at hname
    rcases hname with rfl | rfl | rfl
    · exact hnot _ _ _ hdomain
    · exact hnot _ _ _ haddress
    · exact hnot _ _ _ hworkspaces
  | workspace place h =>
    obtain ⟨name, hname, hnot⟩ := h.exists_not_says
    obtain ⟨-, e, -, -, -, he, -⟩ := WorkspacePlace.ofTree?_put hc
    obtain ⟨-, hentry, hroot, hhost, hprivacy⟩ := Entry.ofTree?_object_iff.mp he
    simp only [Entry.fields, List.mem_cons, List.not_mem_nil, or_false] at hname
    rcases hname with rfl | rfl | rfl | rfl
    · exact hnot _ _ _ hentry
    · exact hnot _ _ _ hroot
    · exact hnot _ _ _ hhost
    · exact hnot _ _ _ hprivacy

/-! ## Files -/

namespace Store

variable {s : Store} {fs fs' : FileSystem}

/-- **The file of a store holds a text** of a document. -/
def Holds (s : Store) (fs : FileSystem) (t : Tree) : Prop :=
  ∃ text : String, fs.find s.path = .ok (.file (Utf8.encode text)) ∧ t.Spells (Utf8.encode text)

/-- What is loaded is the configuration in the document. -/
theorem load_of_holds (h : s.Holds fs t) : s.load fs = (Config.ofTree? t).elim (.error .malformed) .ok := by
  obtain ⟨text, hfile, ht⟩ := h
  have hparse : Config.parse? (Utf8.encode text) = Config.ofTree? t := by
    unfold Config.parse?
    rw [read_eq_ok_iff.mpr ht]
  rw [load_of_file hfile, hparse, Utf8.decode?_encode]
  cases Config.ofTree? t <;> rfl

theorem load_eq_ok_iff_of_holds (h : s.Holds fs t) : s.load fs = .ok c ↔ Config.ofTree? t = some c := by
  rw [load_of_holds h]
  cases Config.ofTree? t <;> simp

/-- **A text that is loaded** has one document. -/
theorem exists_holds {text : String} (hfile : fs.find s.path = .ok (.file (Utf8.encode text)))
    (hload : s.load fs = .ok c) : ∃ t, ∀ t', s.Holds fs t' ↔ t' = t := by
  have hparse := ((load_eq_ok_iff hfile).mp hload).2
  unfold Config.parse? at hparse
  split at hparse
  · rename_i t hread
    refine ⟨t, fun t' => ⟨?_, ?_⟩⟩
    · rintro ⟨text', hfile', ht'⟩
      obtain heq := Node.file.inj (Except.ok.inj (hfile.symm.trans hfile'))
      rw [heq, read_eq_ok_iff.mpr ht'] at hread
      exact Except.ok.inj hread
    · rintro rfl
      exact ⟨text, hfile, read_eq_ok_iff.mp hread⟩
  · exact absurd hparse nofun

/-- **A configuration is loaded by its content.** Every text that is loaded has one document. Texts of
    documents that differ by edits are loaded as the same configuration: it does not matter in which order the
    members of the configuration and of its workspaces stand, what members there are beside the fields, and
    whether a default is written out. A text that repeats a field is malformed. But any levels may stand in
    the place of those of a workspace, and of those of one port the last one counts. -/
theorem load_by_content (s : Store) :
    (∀ fs text c, fs.find s.path = .ok (.file (Utf8.encode text)) → s.load fs = .ok c →
      ∃ t, ∀ t', s.Holds fs t' ↔ t' = t) ∧
    (∀ fs fs' t t' c, s.Holds fs t → s.load fs = .ok c → Relation.ReflTransGen Config.Edits t t' →
      s.Holds fs' t' → s.load fs' = .ok c) ∧
    (∀ fs t, s.Holds fs t → Config.Repeats t → s.load fs = .error .malformed) ∧
    (∀ fs fs' (place : WorkspacePlace) (inner : PrivacyPlace) (ps ps' : Members) c,
      s.Holds fs (place.put (.object (inner.put ps))) → s.load fs = .ok c →
      s.Holds fs' (place.put (.object (inner.put ps'))) → (∀ m ∈ ps', ∃ e, SetsLevel m e) →
      ∃ es e es' levels, c.workspaces = es ++ e :: es' ∧ es.length = place.before.length ∧
        s.load fs' = .ok { c with workspaces := es ++ { e with privacy := levels } :: es' } ∧
        ∀ p l, levels.get? p = some l ↔
          ∃ t, LastUnder ps' (toString p.toNat) t ∧ stringOf? t = some l) := by
  refine ⟨fun fs text c hfile hload => exists_holds hfile hload, ?_, ?_, ?_⟩
  · intro fs fs' t t' c h hload hedits h'
    rw [load_eq_ok_iff_of_holds h] at hload
    exact (load_eq_ok_iff_of_holds h').mpr (Config.ofTree?_of_edits hedits hload)
  · intro fs t h hrepeats
    rw [load_of_holds h, hrepeats.ofTree?_eq_none]
    rfl
  · intro fs fs' place inner ps ps' c h hload h' hps'
    obtain ⟨es, e, es', hes, hlength, he, hput⟩ :=
      WorkspacePlace.ofTree?_put ((load_eq_ok_iff_of_holds h).mp hload)
    obtain ⟨levels, hlevels⟩ := exists_levels? hps'
    refine ⟨es, e, es', levels, hes, hlength, ?_, fun p l => get?_of_levels? hlevels⟩
    exact (load_eq_ok_iff_of_holds h').mpr (hput _ _ (PrivacyPlace.ofTree?_put he hlevels))

/-- A file system with a text in the file of a configuration, and nothing else. -/
def kept (text : String) : FileSystem := { entries := [("config.json", .file (Utf8.encode text))] }

/-- The only workspace of a configuration that says nothing else. -/
def onlyPlace : WorkspacePlace where
  front := []
  key := Literal.ofString "workspaces"
  before := []
  after := []
  back := []
  isKey := Literal.text?_ofString _

/-- The levels of a workspace, in front of its host. -/
def middlePlace : PrivacyPlace where
  front := [member "name" (.ofString "a"), member "root" (.ofString "/")]
  key := Literal.ofString "privacy"
  back := [member "host" (.ofString defaultHost)]
  isKey := Literal.text?_ofString _

/-- A workspace in one line, with its default written out. -/
def plainText : String :=
  "\x7b\"workspaces\":[\x7b\"name\":\"a\",\"root\":\"/\",\"privacy\":\x7b\"80\":\"x\"\x7d," ++
    "\"host\":\"127.0.0.1\"\x7d]\x7d"

/-- The same content with blanks, in another order, without the host, and with a number beyond all doubles
    under no field. -/
def freeText : String :=
  "\x7b \"workspaces\": [\x7b\"privacy\":\x7b\"80\":\"x\"\x7d, \"root\":\"/\", \"name\":\"a\"\x7d],\n" ++
    "\"n\": [[-1e+999]] \x7d"

/-- The workspaces twice. -/
def repeatedText : String := "\x7b\"workspaces\": [], \"workspaces\": null\x7d"

/-- A port twice, with another between. -/
def relevelledText : String :=
  "\x7b\"workspaces\":[\x7b\"name\":\"a\",\"root\":\"/\",\"privacy\":\x7b\"80\":\"x\",\"81\":\"x\",\"80\":\"y\"\x7d," ++
    "\"host\":\"127.0.0.1\"\x7d]\x7d"

/-- What the first two say. -/
def written : Config where
  workspaces := [{ name := "a", root := "/", privacy := ⟨[(80, "x")], by decide⟩ }]

/-- The members of its workspace, without the host. -/
def hostless : Members :=
  [member "name" (.ofString "a"), member "root" (.ofString "/"),
    member "privacy" (.object [member "80" (.ofString "x")])]

set_option maxRecDepth 4000 in
/-- Two texts of one content are loaded as one configuration, workspaces that come twice are refused, and of a
    port that comes twice the last level is kept. -/
theorem load_by_content_handwritten :
    load ⟨⟨["config.json"]⟩⟩ (kept plainText) = .ok written ∧
    load ⟨⟨["config.json"]⟩⟩ (kept freeText) = .ok written ∧
    load ⟨⟨["config.json"]⟩⟩ (kept repeatedText) = .error .malformed ∧
    ∃ c e, load ⟨⟨["config.json"]⟩⟩ (kept relevelledText) = .ok c ∧ e ∈ c.workspaces ∧
      e.privacy.get? 80 = some "y" := by
  have hholds : ∀ {text t}, read .shape (Utf8.encode text) = .ok t → Holds ⟨⟨["config.json"]⟩⟩ (kept text) t :=
    fun h => ⟨_, rfl, read_eq_ok_iff.mp h⟩
  have hplain : Holds ⟨⟨["config.json"]⟩⟩ (kept plainText)
      (onlyPlace.put (.object (middlePlace.put [member "80" (.ofString "x")]))) := hholds rfl
  have hfree : Holds ⟨⟨["config.json"]⟩⟩ (kept freeText)
      (.object [member "workspaces" (.array [.object hostless.reverse]),
        member "n" (.array [.array [.number ⟨true, [1], [], some ⟨false, [9, 9, 9]⟩⟩]])]) := hholds rfl
  have hrepeated : Holds ⟨⟨["config.json"]⟩⟩ (kept repeatedText)
      (.object [member "workspaces" (.array []), member "workspaces" .null]) := hholds rfl
  have hrelevelled : Holds ⟨⟨["config.json"]⟩⟩ (kept relevelledText)
      (onlyPlace.put (.object (middlePlace.put
        [member "80" (.ofString "x"), member "81" (.ofString "x"), member "80" (.ofString "y")]))) :=
    hholds rfl
  have hload : load ⟨⟨["config.json"]⟩⟩ (kept plainText) = .ok written :=
    (load_eq_ok_iff_of_holds hplain).mpr (by decide +kernel)
  obtain ⟨-, hedited, hmalformed, hlevelled⟩ := load_by_content ⟨⟨["config.json"]⟩⟩
  refine ⟨hload, ?_, ?_, ?_⟩
  · -- the host is left out, the workspace turned around, the number put in front, and both turned around
    have hhost : EditsMembers Entry.fields Entry.IsDefault
        (middlePlace.put [member "80" (.ofString "x")]) hostless :=
      .leaveOut hostless [] (Literal.text?_ofString _) (Or.inl ⟨rfl, Literal.text?_ofString _⟩)
    have hnumber : EditsMembers Config.fields Config.IsDefault
        [member "workspaces" (.array [.object hostless.reverse])]
        [member "n" (.array [.array [.number ⟨true, [1], [], some ⟨false, [9, 9, 9]⟩⟩]]),
          member "workspaces" (.array [.object hostless.reverse])] :=
      .insert [] _ _ (Literal.text?_ofString "n") (by decide)
    have hedits := (((Relation.ReflTransGen.single (Config.Edits.workspace onlyPlace hhost)).tail
      (.workspace onlyPlace (.permute hostless.reverse_perm.symm))).tail (.settings hnumber)).tail
      (.settings (.permute (List.reverse_perm _).symm))
    exact hedited _ _ _ _ _ hplain hload hedits hfree
  · exact hmalformed _ _ hrepeated (.settings (.intro (show "workspaces" ∈ Config.fields by decide) [] [] [] _ _
      (Literal.text?_ofString _) (Literal.text?_ofString _)))
  · obtain ⟨es, e, es', levels, -, -, hlevels, hget⟩ :=
      hlevelled _ _ onlyPlace middlePlace _ _ _ hplain hload hrelevelled (by
        simp only [List.forall_mem_cons, List.not_mem_nil, false_implies, implies_true, and_true]
        exact ⟨⟨(80, _), portOfKey?_toString 80, stringOf?_ofString _⟩,
          ⟨(81, _), portOfKey?_toString 81, stringOf?_ofString _⟩,
          ⟨(80, _), portOfKey?_toString 80, stringOf?_ofString _⟩⟩)
    refine ⟨_, { e with privacy := levels }, hlevels, by simp, (hget _ _).mpr ⟨_, ?_, stringOf?_ofString _⟩⟩
    exact ⟨[_, _], _, [], rfl, Literal.text?_ofString "80", fun ⟨_, hm, _⟩ => absurd hm List.not_mem_nil⟩

end Store

end SharedPorts
