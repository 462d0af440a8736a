import SharedPorts.Config.Codec
import SharedPorts.Proofs.IpAddress
import SharedPorts.Proofs.Json.Reader
import SharedPorts.Proofs.Text.Integer

/-!
# `SharedPorts.Proofs.Config.Codec` — configurations through documents and back

A configuration that is written is read as itself: each part of its document is decoded to what it was
written for, and the bytes of the document are read as the document.

## Contents
- **Levels.** `portOfKey?_toString`, `PortLevels.ofList_entries` and `levels?_levelsTree`.
- **Workspaces.** `Entry.ofTree?_tree`.
- **Configurations.** `Config.ofTree?_tree`, `Config.tree_ofTexts`, `Config.parse?_render` and
  `Config.isText_render`.
-/

namespace SharedPorts

open Json

/-! ## Levels -/

theorem stringOf?_ofString (s : String) : stringOf? (.ofString s) = some s := Literal.text?_ofString s

/-- Digits stand for themselves in a string. -/
theorem standsForItself_of_mem_toString {n : Nat} : ∀ c ∈ (toString n).toList, StandsForItself c := by
  intro c hc
  rw [Nat.toString_eq_repr, Nat.toList_repr] at hc
  have hdigit := Nat.isDigit_of_mem_toDigits (by decide) (by decide) hc
  unfold Char.isDigit at hdigit
  rw [Bool.and_eq_true, decide_eq_true_eq, decide_eq_true_eq] at hdigit
  have hlow : 48 ≤ c.toNat := UInt32.le_iff_toNat_le.mp hdigit.1
  have hhigh : c.toNat ≤ 57 := UInt32.le_iff_toNat_le.mp hdigit.2
  exact ⟨by omega, by omega, by omega⟩

/-- **The key of a port** is read as the port. -/
theorem portOfKey?_toString (p : Port) : portOfKey? (Literal.ofString (toString p.toNat)) = some p := by
  unfold portOfKey?
  rw [Literal.plain?_ofString standsForItself_of_mem_toString, Option.bind_some, Utf8.decode?_encode]
  simp only [Option.bind_eq_bind, Option.bind_some, Port.parse?_toString, if_true]

namespace PortLevels

theorem setEntry_of_lt {port : Port} {level : String} {es : List (Port × String)} (h : ∀ e ∈ es, e.1 < port) :
    setEntry port level es = es ++ [(port, level)] := by
  induction es with
  | nil => rfl
  | cons e es ih =>
    have he : e.1 < port := h e List.mem_cons_self
    unfold setEntry
    rw [if_neg (UInt16.not_lt.mpr (UInt16.le_of_lt he)), if_neg (UInt16.ne_of_lt he).symm,
      ih (fun d hd => h d (List.mem_cons_of_mem e hd)), List.cons_append]

/-- Levels set in the order of their ports are kept in that order. -/
theorem entries_foldl_insert {es : List (Port × String)} {levels : PortLevels}
    (h : (levels.entries ++ es).Pairwise (·.1 < ·.1)) :
    (es.foldl (fun levels e => levels.insert e.1 e.2) levels).entries = levels.entries ++ es := by
  induction es generalizing levels with
  | nil => exact (List.append_nil _).symm
  | cons e es ih =>
    have hlast : (levels.insert e.1 e.2).entries = levels.entries ++ [e] :=
      setEntry_of_lt (fun d hd => (List.pairwise_append.mp h).2.2 d hd e List.mem_cons_self)
    rw [List.foldl_cons, ih, hlast, List.append_assoc, List.singleton_append]
    rw [hlast, List.append_assoc, List.singleton_append]
    exact h

theorem eq_of_entries {levels levels' : PortLevels} (h : levels.entries = levels'.entries) : levels = levels' := by
  cases levels
  cases levels'
  cases h
  rfl

/-- **Levels are what they are set to**, one after the other. -/
theorem ofList_entries (levels : PortLevels) : ofList levels.entries = levels :=
  eq_of_entries (@entries_foldl_insert levels.entries empty levels.ordered)

end PortLevels

/-- Things are decoded if each of them is. -/
theorem mapM_eq_some_iff {α β : Type} {f : α → Option β} {xs : List α} {ys : List β} :
    xs.mapM f = some ys ↔ xs.map f = ys.map some := by
  induction xs generalizing ys with
  | nil => cases ys <;> simp
  | cons x xs ih =>
    rw [List.mapM_cons, List.map_cons]
    cases hx : f x with
    | none => cases ys <;> simp
    | some y =>
      cases ys with
      | nil => cases xs.mapM f <;> simp
      | cons y' ys =>
        rw [List.map_cons, List.cons.injEq, Option.some.injEq, ← ih]
        cases xs.mapM f <;> simp

/-- What is decoded from written things, where each is decoded to what it was written for. -/
theorem mapM_map_eq_some {α β : Type} {write : α → β} {decode? : β → Option α} {xs : List α}
    (h : ∀ x ∈ xs, decode? (write x) = some x) : (xs.map write).mapM decode? = some xs := by
  rw [mapM_eq_some_iff, List.map_map]
  exact List.map_congr_left h

theorem levels?_levelsTree (levels : PortLevels) : levels? (levelsTree levels) = some levels := by
  unfold levels? levelsTree
  dsimp only
  rw [mapM_map_eq_some ?_]
  · exact congrArg some (PortLevels.ofList_entries levels)
  · rintro ⟨port, level⟩ -
    show (do
      let port ← portOfKey? (Literal.ofString (toString port.toNat))
      let level ← stringOf? (.ofString level)
      return (port, level)) = some (port, level)
    rw [portOfKey?_toString, stringOf?_ofString]
    rfl

/-! ## Workspaces -/

/-- The members of an object whose keys are texts are found under them. -/
theorem fieldsOf?_members (keys : List String) (named : List (String × Tree)) :
    fieldsOf? keys (.object (named.map fun m => member m.1 m.2)) =
      keys.mapM fun key =>
        match named.filter (·.1 == key) with
        | [] => some none
        | [(_, t)] => some (some t)
        | _ => none := by
  unfold fieldsOf? membersOf?
  dsimp only
  rw [mapM_map_eq_some ?_]
  · rfl
  · rintro ⟨key, t⟩ -
    show ((·, t) <$> (Literal.ofString key).text?) = _
    rw [Literal.text?_ofString]
    rfl

/-- **The document of a workspace** is decoded to the workspace. -/
theorem Entry.ofTree?_tree (e : Entry) : Entry.ofTree? e.tree = some e := by
  have hfields : fieldsOf? ["name", "root", "host", "privacy"] e.tree =
      some [some (.ofString e.name), some (.ofString e.root), some (.ofString e.host),
        some (levelsTree e.privacy)] :=
    fieldsOf?_members _
      [("name", .ofString e.name), ("root", .ofString e.root), ("host", .ofString e.host),
        ("privacy", levelsTree e.privacy)]
  unfold Entry.ofTree?
  rw [hfields]
  simp only [stringOf?_ofString, orDefault, levels?_levelsTree, Option.bind_eq_bind, Option.bind_some,
    Option.pure_def]

theorem levelsTree_ofTexts (levels : PortLevels) : (levelsTree levels).OfTexts := by
  refine .object ?_ ?_
  · intro m hm
    obtain ⟨⟨port, level⟩, -, rfl⟩ := List.mem_map.mp hm
    exact ⟨toString port.toNat, rfl⟩
  · intro m hm
    obtain ⟨⟨port, level⟩, -, rfl⟩ := List.mem_map.mp hm
    exact .text level

theorem Entry.tree_ofTexts (e : Entry) : e.tree.OfTexts := by
  refine .object ?_ ?_
  · simp only [List.forall_mem_cons, List.not_mem_nil, false_implies, implies_true, and_true]
    exact ⟨⟨_, rfl⟩, ⟨_, rfl⟩, ⟨_, rfl⟩, ⟨_, rfl⟩⟩
  · simp only [List.forall_mem_cons, List.not_mem_nil, false_implies, implies_true, and_true]
    exact ⟨.text _, .text _, .text _, levelsTree_ofTexts _⟩

/-! ## Configurations -/

namespace Config

/-- **The document of a configuration** is decoded to the configuration. -/
theorem ofTree?_tree (c : Config) : ofTree? c.tree = some c := by
  have hfields : fieldsOf? ["previewDomain", "bindAddress", "workspaces"] c.tree =
      some [some (.ofString c.previewDomain), some (.ofString c.bindAddress.text),
        some (.array (c.workspaces.map Entry.tree))] :=
    fieldsOf?_members _
      [("previewDomain", .ofString c.previewDomain), ("bindAddress", .ofString c.bindAddress.text),
        ("workspaces", .array (c.workspaces.map Entry.tree))]
  have haddress : addressOf? (.ofString c.bindAddress.text) = some c.bindAddress := by
    unfold addressOf?
    rw [stringOf?_ofString, Option.bind_some, IpAddress.parse?_text]
  have hworkspaces : workspaces? (.array (c.workspaces.map Entry.tree)) = some c.workspaces :=
    mapM_map_eq_some (fun e _ => Entry.ofTree?_tree e)
  unfold ofTree?
  rw [hfields]
  simp only [orDefault, stringOf?_ofString, haddress, hworkspaces, Option.bind_eq_bind, Option.bind_some,
    Option.pure_def]

theorem tree_ofTexts (c : Config) : c.tree.OfTexts := by
  refine .object ?_ ?_
  · simp only [List.forall_mem_cons, List.not_mem_nil, false_implies, implies_true, and_true]
    exact ⟨⟨_, rfl⟩, ⟨_, rfl⟩, ⟨_, rfl⟩⟩
  · simp only [List.forall_mem_cons, List.not_mem_nil, false_implies, implies_true, and_true]
    refine ⟨.text _, .text _, .array ?_⟩
    intro t ht
    obtain ⟨e, -, rfl⟩ := List.mem_map.mp ht
    exact e.tree_ofTexts

/-- **The bytes of a configuration** are read as the configuration. -/
theorem parse?_render (c : Config) : parse? c.render = some c := by
  unfold parse? render
  rw [read_render c.tree_ofTexts]
  exact c.ofTree?_tree

/-- The bytes of a configuration are a text. -/
theorem isText_render (c : Config) : Utf8.IsText c.render := c.tree_ofTexts.isText 0

end Config

end SharedPorts
