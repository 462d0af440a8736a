import SharedPorts.Config.Basic
import SharedPorts.Json.Printer
import SharedPorts.Json.Reader

/-!
# `SharedPorts.Config.Codec` — configurations as documents

A configuration is kept as a document. It is written in one way, and read by its content: the members of
an object may come in any order, unknown members are passed over, and missing settings have their
defaults. A known member may not come twice. An object may also be written as the array of its fields.

## Contents
- **Writing.** `levelsTree`, `Entry.tree`, `Config.tree` and `Config.render`.
- **Fields.** `membersOf?` and `fieldsOf?`, what an object or array says about some fields.
- **Reading.** `levels?`, `Entry.ofTree?`, `Config.ofTree?` and `Config.parse?`.
-/

namespace SharedPorts

open Json

/-! ## Writing -/

/-- The document of some levels. -/
def levelsTree (levels : PortLevels) : Tree :=
  .object (levels.entries.map fun (port, level) => member (toString port.toNat) (.ofString level))

/-- The document of a workspace. -/
def Entry.tree (e : Entry) : Tree :=
  .object
    [member "name" (.ofString e.name), member "root" (.ofString e.root),
      member "host" (.ofString e.host), member "privacy" (levelsTree e.privacy)]

/-- The document of a configuration. -/
def Config.tree (c : Config) : Tree :=
  .object
    [member "previewDomain" (.ofString c.previewDomain),
      member "bindAddress" (.ofString c.bindAddress.text),
      member "workspaces" (.array (c.workspaces.map Entry.tree))]

/-- The bytes of a configuration. -/
def Config.render (c : Config) : Bytes := c.tree.render 0

/-! ## Fields -/

/-- The value of each of some keys in an object whose keys are all texts. A key that comes twice, among
    those asked for, makes the object unreadable. -/
def membersOf? (keys : List String) (members : Members) : Option (List (Option Tree)) := do
  let named ← members.mapM fun (key, t) => (·, t) <$> key.text?
  keys.mapM fun key =>
    match named.filter (·.1 == key) with
    | [] => some none
    | [(_, t)] => some (some t)
    | _ => none

/-- The value of each field of a document: of an object by their keys, of an array in their order, with
    nothing behind the last one. -/
def fieldsOf? (keys : List String) : Tree → Option (List (Option Tree))
  | .object members => membersOf? keys members
  | .array items =>
    if items.length ≤ keys.length then
      some (items.map some ++ List.replicate (keys.length - items.length) none)
    else none
  | _ => none

/-- The text of a string. -/
def stringOf? : Tree → Option String
  | .string l => l.text?
  | _ => none

/-- The value of a field that may be missing. -/
def orDefault {α : Type} (default : α) (value? : Tree → Option α) : Option Tree → Option α
  | none => some default
  | some t => value? t

/-! ## Reading -/

/-- The port that a key writes: decimal digits as short as they can be, without escapes. -/
def portOfKey? (key : Literal) : Option Port := do
  let text ← key.plain?.bind Utf8.decode?
  let port ← Port.parse? text.toList
  if text = toString port.toNat then some port else none

/-- The levels in an object; of equal ports the last one counts. -/
def levels? : Tree → Option PortLevels
  | .object members =>
    PortLevels.ofList <$> members.mapM fun (key, t) => do
      let port ← portOfKey? key
      let level ← stringOf? t
      return (port, level)
  | _ => none

/-- The workspace in a document. -/
def Entry.ofTree? (t : Tree) : Option Entry :=
  match fieldsOf? ["name", "root", "host", "privacy"] t with
  | some [some name, some root, host, privacy] => do
    let name ← stringOf? name
    let root ← stringOf? root
    let host ← orDefault defaultHost stringOf? host
    let privacy ← orDefault PortLevels.empty levels? privacy
    return { name, root, host, privacy }
  | _ => none

/-- The workspaces in an array. -/
def workspaces? : Tree → Option (List Entry)
  | .array items => items.mapM Entry.ofTree?
  | _ => none

/-- The address in a string. -/
def addressOf? (t : Tree) : Option IpAddress := (stringOf? t).bind IpAddress.parse?

/-- The configuration in a document. -/
def Config.ofTree? (t : Tree) : Option Config :=
  match fieldsOf? ["previewDomain", "bindAddress", "workspaces"] t with
  | some [domain, address, workspaces] => do
    let previewDomain ← orDefault defaultDomain stringOf? domain
    let bindAddress ← orDefault IpAddress.loopback addressOf? address
    let workspaces ← orDefault [] workspaces? workspaces
    return { previewDomain, bindAddress, workspaces }
  | _ => none

/-- The configuration in a text. -/
def Config.parse? (text : Bytes) : Option Config :=
  match read .shape text with
  | .ok t => Config.ofTree? t
  | .error _ => none

end SharedPorts
