import SharedPorts.Cli.Grammar
import SharedPorts.Listing

/-!
# `SharedPorts.Cli.Command` — what is to be done

The command line names one command, with settings that all commands share.

## Contents
- **Commands.** `Command` and `Invocation`.
- **The verbs.** `program`, the grammar of this program.
- **Reading.** `Invocation.parse`.
-/

namespace SharedPorts.Cli

/-! ## Commands -/

/-- What is to be done. -/
inductive Command
  | list (workspace : String)
  | setPrivacy (workspace : String) (specs : List String)
  | forward (workspace : String) (specs : List String)
  | addWorkspace (name root : String) (host : Option String)
  | removeWorkspace (name : String)
  | listWorkspaces
  | showConfig
  | setConfig (domain : Option String) (address : Option IpAddress)
  deriving DecidableEq, Repr

/-- A command, whether its output is a document, and whether details are logged. -/
structure Invocation where
  command : Command
  json : Bool
  verbose : Bool
  deriving DecidableEq, Repr

/-! ## The verbs -/

/-- An option that takes any text. -/
def anyText (long : String) (short : Option Char) : Opt := ⟨long, short, .value fun _ => true⟩

/-- An option that takes the path of a file. -/
def pathOption (long : String) : Opt := ⟨long, none, .value fun s => !s.isEmpty⟩

/-- An option that takes an internet address. -/
def addressOption (long : String) : Opt := ⟨long, none, .value fun s => (IpAddress.parse? s).isSome⟩

/-- The verbs of this program. -/
def program : Verb where
  name := "spaceport"
  shared := [{ long := "json" }, { long := "verbose", short := some 'v', takes := .repetition }]
  needsVerb := true
  verbs :=
    [{ name := "ports"
       shared := [anyText "workspace" (some 'w')]
       verbs :=
        [{ name := "list", aliases := ["ls"] },
          { name := "privacy", aliases := ["visibility"], operands := .some },
          { name := "forward", operands := .some }] },
      { name := "workspace"
        aliases := ["ws"]
        needsVerb := true
        verbs :=
          [{ name := "add", options := [pathOption "root", anyText "host" none], operands := .one },
            { name := "remove", aliases := ["rm"], operands := .one },
            { name := "list", aliases := ["ls"] }] },
      { name := "config"
        verbs :=
          [{ name := "show" },
            { name := "set"
              options := [anyText "preview-domain" none, addressOption "bind-address"]
              needsAnything := true }] }]

/-! ## Reading -/

/-- The command that a finished command line names. -/
def Command.ofChain? (c : Chain) : Option Command :=
  let workspace := (c.value? "workspace").getD ""
  match c.verbs, c.operands with
  | ["ports"], _ | ["ports", "list"], _ => some (.list workspace)
  | ["ports", "privacy"], specs => some (.setPrivacy workspace specs)
  | ["ports", "forward"], specs => some (.forward workspace specs)
  | ["workspace", "add"], [name] =>
    (c.value? "root").map fun root => .addWorkspace name root (c.value? "host")
  | ["workspace", "remove"], [name] => some (.removeWorkspace name)
  | ["workspace", "list"], _ => some .listWorkspaces
  | ["config"], _ | ["config", "show"], _ => some .showConfig
  | ["config", "set"], _ =>
    some (.setConfig (c.value? "preview-domain") ((c.value? "bind-address").bind IpAddress.parse?))
  | _, _ => none

/-- Read a command line. -/
def Invocation.parse (args : List String) : Except Halt Invocation :=
  match (Chain.words { here := { verb := program } } args).bind Chain.close with
  | .error halt => .error halt
  | .ok c =>
    match Command.ofChain? c with
    | none => .error .usage
    | some command => .ok ⟨command, c.has "json", c.has "verbose"⟩

end SharedPorts.Cli
