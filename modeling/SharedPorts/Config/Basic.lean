import SharedPorts.IpAddress
import SharedPorts.Listing
import SharedPorts.SystemError

/-!
# `SharedPorts.Config.Basic` — settings and workspaces

A configuration holds two settings and the known workspaces. Each workspace keeps the levels of the ports
for which one has been set.

## Contents
- **Levels.** `PortLevels`, a level for each of some ports, in the order of ports; `get?` and `insert`.
- **Configurations.** `Entry` and `Config`.
- **Changes.** `ConfigError`, and the changes of a configuration: `Config.add`, `Config.remove`,
  `Config.setLevel`, `Config.setPreviewDomain` and `Config.setBindAddress`.
-/

namespace SharedPorts

/-! ## Levels -/

/-- A level for each of some ports, lowest port first. -/
structure PortLevels where
  entries : List (Port × String)
  ordered : entries.Pairwise (·.1 < ·.1) := by simp
  deriving DecidableEq, Repr

namespace PortLevels

/-- No levels. -/
def empty : PortLevels := ⟨[], .nil⟩

/-- The level of a port. -/
def get? (levels : PortLevels) (port : Port) : Option String := levels.entries.lookup port

/-- A level put in its place, where it replaces the level of the same port. -/
def setEntry (port : Port) (level : String) : List (Port × String) → List (Port × String)
  | [] => [(port, level)]
  | e :: es =>
    if port < e.1 then (port, level) :: e :: es
    else if port = e.1 then (port, level) :: es
    else e :: setEntry port level es

theorem mem_setEntry {port : Port} {level : String} {es : List (Port × String)} {e : Port × String}
    (h : e ∈ setEntry port level es) : e = (port, level) ∨ e ∈ es := by
  induction es with
  | nil => simpa [setEntry] using h
  | cons d ds ih =>
    simp only [setEntry] at h
    split at h
    · simpa using h
    · split at h
      · exact (List.mem_cons.mp h).imp id (List.mem_cons_of_mem d)
      · rcases List.mem_cons.mp h with h | h
        · exact .inr (by simp [h])
        · exact (ih h).imp id (List.mem_cons_of_mem d)

theorem pairwise_setEntry (port : Port) (level : String) {es : List (Port × String)}
    (h : es.Pairwise (·.1 < ·.1)) : (setEntry port level es).Pairwise (·.1 < ·.1) := by
  induction es with
  | nil => simp [setEntry]
  | cons d ds ih =>
    obtain ⟨hd, hds⟩ := List.pairwise_cons.mp h
    simp only [setEntry]
    split
    · rename_i hlt
      refine List.pairwise_cons.mpr ⟨fun e he => ?_, h⟩
      rcases List.mem_cons.mp he with rfl | he
      · exact hlt
      · exact UInt16.lt_trans hlt (hd e he)
    · split
      · rename_i heq
        exact List.pairwise_cons.mpr ⟨fun e he => heq ▸ hd e he, hds⟩
      · rename_i hge hne
        refine List.pairwise_cons.mpr ⟨fun e he => ?_, ih hds⟩
        rcases mem_setEntry he with rfl | he
        · exact UInt16.lt_of_le_of_ne (UInt16.not_lt.mp hge) (Ne.symm hne)
        · exact hd e he

theorem lookup_setEntry_self (port : Port) (level : String) (es : List (Port × String)) :
    (setEntry port level es).lookup port = some level := by
  induction es with
  | nil => simp [setEntry]
  | cons d ds ih =>
    obtain ⟨k, v⟩ := d
    simp only [setEntry]
    split
    · simp
    · split
      · simp
      · rename_i hne
        have hb : (port == k) = false := by simpa using hne
        simp [List.lookup_cons, hb, ih]

theorem lookup_setEntry_of_ne {port q : Port} (level : String) (es : List (Port × String))
    (h : q ≠ port) : (setEntry port level es).lookup q = es.lookup q := by
  have hq : (q == port) = false := by simpa using h
  induction es with
  | nil => simp [setEntry, List.lookup_cons, hq]
  | cons d ds ih =>
    obtain ⟨k, v⟩ := d
    simp only [setEntry]
    split
    · simp [List.lookup_cons, hq]
    · split
      · rename_i heq
        subst heq
        simp [List.lookup_cons, hq]
      · simp [List.lookup_cons, ih]

/-- Set the level of a port. -/
def insert (levels : PortLevels) (port : Port) (level : String) : PortLevels :=
  ⟨setEntry port level levels.entries, pairwise_setEntry port level levels.ordered⟩

/-- The level of a port is the one that was set. -/
theorem get?_insert_self (levels : PortLevels) (port : Port) (level : String) :
    (levels.insert port level).get? port = some level :=
  lookup_setEntry_self port level levels.entries

/-- Setting the level of a port changes no other port's. -/
theorem get?_insert_of_ne (levels : PortLevels) {port q : Port} (level : String) (h : q ≠ port) :
    (levels.insert port level).get? q = levels.get? q :=
  lookup_setEntry_of_ne level levels.entries h

/-- The levels set one after the other; the last one set for a port counts. -/
def ofList (entries : List (Port × String)) : PortLevels :=
  entries.foldl (fun levels e => levels.insert e.1 e.2) empty

end PortLevels

/-! ## Configurations -/

/-- The host that forwards lead to, unless another is chosen. -/
def defaultHost : String := "127.0.0.1"

/-- A workspace: a directory of this machine, whose path is a text, and the host that forwards lead to. -/
structure Entry where
  name : String
  root : String
  host : String := defaultHost
  privacy : PortLevels := .empty
  deriving DecidableEq, Repr

/-- The settings of a user, and the known workspaces. -/
structure Config where
  previewDomain : String := defaultDomain
  bindAddress : IpAddress := .loopback
  workspaces : List Entry := []
  deriving DecidableEq, Repr

/-! ## Changes -/

/-- Why a configuration cannot be read, changed or kept. -/
inductive ConfigError
  | unreadable (cause : SystemError)
  | malformed
  | noDirectory (cause : SystemError)
  | noTemporary (cause : SystemError)
  | noRename (cause : SystemError)
  | duplicate (name : String)
  | unknown (name : String)
  deriving DecidableEq, Repr

/-- What an error says. -/
def ConfigError.message (e : ConfigError) : String :=
  "Configuration error: " ++
    match e with
    | .unreadable cause => s!"Failed to read config: {cause.message}"
    | .malformed => "Failed to parse config"
    | .noDirectory cause => s!"Failed to create config directory: {cause.message}"
    | .noTemporary cause => s!"Failed to create temp config file: {cause.message}"
    | .noRename cause => s!"Failed to rename config file: {cause.message}"
    | .duplicate name => s!"Workspace {name} already exists"
    | .unknown name => s!"Workspace {name} does not exist"

namespace Config

/-- The first workspace of a name. -/
def find? (c : Config) (name : String) : Option Entry := c.workspaces.find? (·.name == name)

/-- Add a workspace at the end, unless its name is taken. -/
def add (entry : Entry) (c : Config) : Except ConfigError Config :=
  if c.workspaces.any (·.name == entry.name) then .error (.duplicate entry.name)
  else .ok { c with workspaces := c.workspaces ++ [entry] }

/-- Remove the workspaces of a name, of which there has to be one. -/
def remove (name : String) (c : Config) : Except ConfigError Config :=
  if c.workspaces.any (·.name == name) then
    .ok { c with workspaces := c.workspaces.filter (·.name != name) }
  else .error (.unknown name)

/-- Change the first workspace of a name, if there is one. -/
def changeFirst (name : String) (change : Entry → Entry) : List Entry → Option (List Entry)
  | [] => none
  | e :: es =>
    if e.name = name then some (change e :: es) else (changeFirst name change es).map (e :: ·)

/-- Set the level of a port in the first workspace of a name. -/
def setLevel (name : String) (port : Port) (level : String) (c : Config) : Except ConfigError Config :=
  match changeFirst name (fun e => { e with privacy := e.privacy.insert port level }) c.workspaces with
  | none => .error (.unknown name)
  | some workspaces => .ok { c with workspaces }

/-- Set the domain of browse addresses. -/
def setPreviewDomain (domain : String) (c : Config) : Except ConfigError Config :=
  .ok { c with previewDomain := domain }

/-- Set the address that local listeners bind to. -/
def setBindAddress (address : IpAddress) (c : Config) : Except ConfigError Config :=
  .ok { c with bindAddress := address }

end Config

end SharedPorts
