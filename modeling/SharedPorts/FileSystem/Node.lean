import SharedPorts.Text.Utf8

/-!
# `SharedPorts.FileSystem.Node` — files and directories

Files and directories form a tree. A place in it is the list of the names that lead there, and what stands
at places says everything about the tree that can be asked.

## Contents
- **Trees.** `Node` and `Place`.
- **Looking.** `Node.get?`.
- **Changing.** `Node.put` and `Node.erase`, with what they do to `get?` at the place and apart from it.
-/

namespace SharedPorts

/-! ## Trees -/

/-- A file with its content, or a directory with what stands in it. -/
inductive Node
  | file (bytes : Bytes)
  | directory (entries : List (String × Node))

/-- A place: the names that lead to it from the root. -/
abbrev Place := List String

/-- The text of a place. -/
def Place.text (p : Place) : String := "/" ++ "/".intercalate p

namespace Node

/-! ## Looking -/

/-- What stands at a place below a node. -/
def get? : Node → Place → Option Node
  | node, [] => some node
  | .file _, _ :: _ => none
  | .directory entries, name :: rest =>
    match entries.lookup name with
    | none => none
    | some node => node.get? rest

/-! ## Changing -/

/-- Entries with a node under a name, new or in place of another. -/
def enter (entries : List (String × Node)) (name : String) (node : Node) : List (String × Node) :=
  (name, node) :: entries.filter (·.1 != name)

/-- Put a node at a place below another, whose directory has to be there. -/
def put : Node → Place → Node → Node
  | _, [], new => new
  | .file bytes, _ :: _, _ => .file bytes
  | .directory entries, name :: rest, new =>
    .directory (enter entries name (((entries.lookup name).getD (.directory [])).put rest new))

/-- Remove what stands at a place below a node. -/
def erase : Node → Place → Node
  | node, [] => node
  | .file bytes, _ :: _ => .file bytes
  | .directory entries, [name] => .directory (entries.filter (·.1 != name))
  | .directory entries, name :: rest =>
    match entries.lookup name with
    | none => .directory entries
    | some node => .directory (enter entries name (node.erase rest))

theorem lookup_filter_ne {α β : Type} [BEq α] [LawfulBEq α] {a b : α} (h : b ≠ a) (l : List (α × β)) :
    (l.filter (·.1 != a)).lookup b = l.lookup b := by
  induction l with
  | nil => rfl
  | cons x xs ih =>
    obtain ⟨k, v⟩ := x
    by_cases hk : k = a
    · subst hk
      have hb : (b == k) = false := by simpa using h
      simp [List.lookup_cons, hb, ih]
    · by_cases hb : b = k
      · subst hb
        simp [hk]
      · have hb' : (b == k) = false := by simpa using hb
        simp [List.lookup_cons, hk, hb', ih]

theorem lookup_filter_self {α β : Type} [BEq α] [LawfulBEq α] (a : α) (l : List (α × β)) :
    (l.filter (·.1 != a)).lookup a = none := by
  induction l with
  | nil => rfl
  | cons x xs ih =>
    obtain ⟨k, v⟩ := x
    by_cases hk : k = a
    · simp [hk, ih]
    · have ha : (a == k) = false := by simpa using Ne.symm hk
      simp [List.lookup_cons, hk, ha, ih]

theorem lookup_enter (entries : List (String × Node)) (name other : String) (node : Node) :
    (enter entries name node).lookup other = if other = name then some node else entries.lookup other := by
  by_cases h : other = name
  · subst h
    simp [enter]
  · have hb : (other == name) = false := by simpa using h
    simp [enter, List.lookup_cons, hb, h, lookup_filter_ne h]

/-- What was put at a place stands there, and below it what stands below the node. -/
theorem get?_put_append {node new : Node} {p : Place} {name : String} {entries : List (String × Node)}
    (h : node.get? p = some (.directory entries)) (q : Place) :
    (node.put (p ++ [name]) new).get? (p ++ name :: q) = new.get? q := by
  induction p generalizing node with
  | nil =>
    cases node with
    | file bytes => simp [get?] at h
    | directory es => simp [put, get?, lookup_enter]
  | cons a p ih =>
    cases node with
    | file bytes => simp [get?] at h
    | directory es =>
      cases ha : es.lookup a with
      | none => simp [get?, ha] at h
      | some child =>
        have hc : child.get? p = some (.directory entries) := by simpa [get?, ha] using h
        simpa [put, get?, lookup_enter, ha] using ih hc

/-- Putting a node at a place changes nothing at a place that parts from it on the way. -/
theorem get?_put_of_ne {node new : Node} {p q r : Place} {a b : String} (h : b ≠ a) :
    (node.put (p ++ a :: q) new).get? (p ++ b :: r) = node.get? (p ++ b :: r) := by
  induction p generalizing node with
  | nil =>
    cases node with
    | file bytes => rfl
    | directory es => simp [put, get?, lookup_enter, h]
  | cons c p ih =>
    cases node with
    | file bytes => rfl
    | directory es =>
      cases hc : es.lookup c with
      | none =>
        have : (Node.directory []).get? (p ++ b :: r) = none := by cases p <;> rfl
        simp [put, get?, lookup_enter, hc, ih, this]
      | some child => simp [put, get?, lookup_enter, hc, ih]

/-- Nothing stands at a place that was cleared, nor below it. -/
theorem get?_erase_append {node : Node} {p : Place} {name : String} (q : Place) :
    (node.erase (p ++ [name])).get? (p ++ name :: q) = none := by
  induction p generalizing node with
  | nil =>
    cases node with
    | file bytes => rfl
    | directory es => simp [erase, get?, lookup_filter_self]
  | cons a p ih =>
    cases node with
    | file bytes => rfl
    | directory es =>
      cases ha : es.lookup a with
      | none => cases p <;> simp [erase, get?, ha]
      | some child => cases p <;> simpa [erase, get?, lookup_enter, ha] using ih

/-- Clearing a place changes nothing at a place that parts from it on the way. -/
theorem get?_erase_of_ne {node : Node} {p q r : Place} {a b : String} (h : b ≠ a) :
    (node.erase (p ++ a :: q)).get? (p ++ b :: r) = node.get? (p ++ b :: r) := by
  induction p generalizing node with
  | nil =>
    cases node with
    | file bytes => rfl
    | directory es =>
      cases q with
      | nil => simp [erase, get?, lookup_filter_ne h]
      | cons c q => cases ha : es.lookup a <;> simp [erase, get?, lookup_enter, ha, h]
  | cons c p ih =>
    cases node with
    | file bytes => rfl
    | directory es =>
      cases hc : es.lookup c with
      | none => cases p <;> simp [erase, get?, hc]
      | some child => cases p <;> simpa [erase, get?, lookup_enter, hc] using ih

end Node

end SharedPorts
