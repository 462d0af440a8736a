import SharedPorts.Cli.Command
import SharedPorts.Cli.Report
import SharedPorts.Machine

/-!
# `SharedPorts.Cli.Program` — running a command

A command runs on a machine and leaves it with its files changed. What it printed and how it ended are
values, so that a run can be followed without a terminal.

## Contents
- **Worlds.** `World`, what a run depends on, and `Finish`, what it comes to.
- **Ports.** `list`, `setPrivacy` and `forward`.
- **Workspaces.** `addWorkspace`, `removeWorkspace` and `listWorkspaces`.
- **Settings.** `showConfig` and `setConfig`.
- **Runs.** `Command.run` and `run`.
-/

namespace SharedPorts.Cli

/-! ## Worlds -/

/-- What a run depends on: a machine, the home directory of its user, the addresses of the machine, and
    whether the user interrupts a forward that goes on and on. -/
structure World where
  machine : Machine
  home : Path
  owns : IpAddress → Bool := fun _ => true
  interrupted : Bool := false

/-- What a run comes to: the status it ends with, what it printed, and the machine's files. -/
structure Finish where
  status : Nat
  output : Bytes := []
  errors : String := ""
  files : FileSystem

/-- The place of the configuration. -/
def World.store (w : World) : Store := ⟨w.home.join ⟨[".spaceport", "config.json"]⟩⟩

/-- What a part of a run printed, the files after it, and how it failed, if it did. -/
structure Step where
  output : Bytes := []
  log : List LogLine := []
  files : FileSystem
  failure : Option Failure := none

/-- A part of a run that printed some lines. -/
def Step.printing (files : FileSystem) (lines : List String) : Step :=
  { output := linesText lines, files }

/-- A part of a run that failed. -/
def Step.failing (files : FileSystem) (failure : Failure) : Step := { files, failure := some failure }

/-- A failure to read, change or keep the configuration. -/
def configFailure (e : ConfigError) : Failure := { message := e.message }

/-- A failure of an operation; where there is no workspace yet, it says how to add one. -/
def serviceFailure : ServiceError → Failure
  | .noWorkspaces =>
    { message :=
        "no workspaces available; add one with \x60spaceport workspace add <NAME> --root <DIR>\x60" }
  | e => { message := e.message, causes := e.causes }

/-! ## Ports -/

/-- Run an operation of the service, and print what came of it. -/
def withService {α : Type} (w : World)
    (operation : Service Machine Session → Run Machine → Outcome α × Run Machine)
    (print : α → Bytes) : Step :=
  match w.store.load w.machine.files with
  | .error e => .failing w.machine.files (configFailure e)
  | .ok config =>
    let start : Run Machine :=
      { state := w.machine, deadline := if w.interrupted then some 1 else none }
    let (outcome, r) := operation (Machine.service w.store w.owns config) start
    let step : Step := { log := r.log, files := r.state.files }
    match outcome with
    | .done value => { step with output := print value }
    | .failed e =>
      match e, r.fired with
      | .forward .., true => { step with log := r.log ++ [.note ⟨.info, "Stopped forwarding"⟩] }
      | e, _ => { step with failure := some (serviceFailure e) }
    | .waiting => step

/-- List the shared ports of a workspace. -/
def list (w : World) (json : Bool) (workspace : String) : Step :=
  withService w (fun s => s.list workspace) fun rows =>
    if json then documentText (.array (rows.map rowTree)) else linesText (portTable rows)

/-- Set the levels of some ports of a workspace. -/
def setPrivacy (w : World) (workspace : String) (specs : List String) : Step :=
  withService w (fun s => s.setLevels workspace specs) fun _ => []

/-- Forward some ports of a workspace. -/
def forward (w : World) (workspace : String) (specs : List String) : Step :=
  withService w (fun s => s.forward workspace specs) fun _ => []

/-! ## Workspaces -/

/-- Change the configuration, and say that it was done. -/
def changeConfig (files : FileSystem)
    (change : FileSystem → Except ConfigError Unit × FileSystem) (said : String) : Step :=
  match change files with
  | (.error e, files) => .failing files (configFailure e)
  | (.ok (), files) => .printing files [said]

/-- Add a workspace, whose root has to exist. -/
def addWorkspace (w : World) (name root : String) (host : Option String) : Step :=
  match w.machine.files.realPath (.ofText root) with
  | .error e =>
    .failing w.machine.files
      { message := s!"Workspace root {root} is not accessible", causes := [e.message] }
  | .ok place =>
    let entry : Entry := { name, root := place.text, host := host.getD defaultHost }
    changeConfig w.machine.files (w.store.add entry) s!"Added workspace {name} ({entry.root})"

/-- Remove a workspace. -/
def removeWorkspace (w : World) (name : String) : Step :=
  changeConfig w.machine.files (w.store.remove name) s!"Removed workspace {name}"

/-- List the workspaces. -/
def listWorkspaces (w : World) (json : Bool) : Step :=
  match w.store.workspaces w.machine.files with
  | .error e => .failing w.machine.files (configFailure e)
  | .ok workspaces =>
    if json then
      { output := documentText (.array (workspaces.map Entry.tree)), files := w.machine.files }
    else .printing w.machine.files (workspaceTable workspaces)

/-! ## Settings -/

/-- Show the configuration. -/
def showConfig (w : World) (json : Bool) : Step :=
  match w.store.load w.machine.files with
  | .error e => .failing w.machine.files (configFailure e)
  | .ok config =>
    if json then { output := documentText config.tree, files := w.machine.files }
    else .printing w.machine.files (configLines w.store.path.text config)

/-- Do something more after a part of a run, unless that part failed. -/
def Step.andThen (s : Step) (next : FileSystem → Step) : Step :=
  if s.failure.isSome then s
  else
    let t := next s.files
    { t with output := s.output ++ t.output, log := s.log ++ t.log }

/-- Change the settings that are given, the domain first. -/
def setConfig (w : World) (domain : Option String) (address : Option IpAddress) : Step :=
  let first : Step :=
    match domain with
    | none => { files := w.machine.files }
    | some d =>
      changeConfig w.machine.files (w.store.setPreviewDomain d) s!"Preview domain set to {d}"
  first.andThen fun files =>
    match address with
    | none => { files }
    | some a => changeConfig files (w.store.setBindAddress a) s!"Bind address set to {a.text}"

/-! ## Runs -/

/-- Run a command. -/
def Command.run (w : World) (json : Bool) : Command → Step
  | .list workspace => Cli.list w json workspace
  | .setPrivacy workspace specs => Cli.setPrivacy w workspace specs
  | .forward workspace specs => Cli.forward w workspace specs
  | .addWorkspace name root host => Cli.addWorkspace w name root host
  | .removeWorkspace name => Cli.removeWorkspace w name
  | .listWorkspaces => Cli.listWorkspaces w json
  | .showConfig => Cli.showConfig w json
  | .setConfig domain address => Cli.setConfig w domain address

/-- The version of this program. -/
def version : String := "0.1.0"

/-- Run a command line. -/
def run (w : World) (args : List String) : Finish :=
  match Invocation.parse args with
  | .error .usage => { status := 2, files := w.machine.files }
  | .error .help => { status := 0, files := w.machine.files }
  | .error (.version name) =>
    { status := 0, output := linesText [s!"{name} {version}"], files := w.machine.files }
  | .ok i =>
    let step := i.command.run w i.json
    let log := logText i.verbose step.log
    match step.failure with
    | none => { status := 0, output := step.output, errors := log, files := step.files }
    | some f =>
      { status := 1, output := step.output, errors := log ++ f.report, files := step.files }

end SharedPorts.Cli
