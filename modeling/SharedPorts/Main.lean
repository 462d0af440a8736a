import SharedPorts.Cli.Program

/-!
# `SharedPorts.Main` — the program

The outermost layer: it takes the part of the machine that a command depends on, runs the command on it,
prints what the run printed and keeps the configuration if it has changed. It decides nothing itself.

The table of listening sockets comes from standard input, as `ss -Htln` prints it, when ports are to be
listed. Forwards end where the run would wait for a connection.
-/

namespace SharedPorts.Cli

/-- The bytes of a file of this machine, if it can be read. -/
def bytesAt? (place : String) : IO (Option Bytes) := do
  try
    return some (← IO.FS.readBinFile place).toList
  catch _ => return none

/-- A part of the machine's files, with a directory added. -/
def withDirectory (files : FileSystem) (path : Path) : FileSystem :=
  (files.createDirectories path).2

/-- A part of the machine's files, with a file added if the machine has it. -/
def withFile (files : FileSystem) (path : Path) : IO FileSystem := do
  match ← bytesAt? path.text with
  | none => return files
  | some bytes =>
    let files := (path.parent?.map (withDirectory files)).getD files
    return (files.writeFile path bytes).toOption.getD files

/-- The world of a run: the configuration, the labels of each workspace, the current directory and the
    root of a new workspace are taken from the machine. -/
def takeWorld (invocation : Except Halt Invocation) : IO World := do
  let home := Path.ofText ((← IO.getEnv "HOME").getD "/")
  let current := Path.ofText (toString (← IO.currentDir))
  let there := withDirectory {} current
  let start := { there with current := (there.realPath current).toOption.getD [] }
  let world : World := { machine := { files := start }, home }
  let mut files ← withFile world.machine.files world.store.path
  for e in ((world.store.workspaces files).toOption.getD []) do
    files ← withFile files ((Path.ofText e.root).join (.ofText PortLabels.path))
  let mut listening : Except ScanError (List Listener) := .ok []
  match invocation with
  | .ok ⟨.addWorkspace _ root _, _, _⟩ =>
    try
      files := withDirectory files (Path.ofText (toString (← IO.FS.realPath root)))
    catch _ => pure ()
  | .ok ⟨.list _, _, _⟩ =>
    listening := Listener.scan .linux (some (← (← IO.getStdin).readToEnd).toUTF8.toList)
  | _ => pure ()
  return { world with machine := { files, listening }, interrupted := true }

/-- Keep the configuration after a run, if it has changed. -/
def keepConfig (world : World) (files : FileSystem) : IO Unit := do
  match files.contentOf world.store.path with
  | .error _ => return
  | .ok bytes =>
    if (world.machine.files.contentOf world.store.path).toOption != some bytes then
      for directory in world.store.path.parent? do
        IO.FS.createDirAll directory.text
      IO.FS.writeBinFile world.store.temporary.text (ByteArray.mk bytes.toArray)
      IO.FS.rename world.store.temporary.text world.store.path.text

end SharedPorts.Cli

open SharedPorts.Cli in
/-- Run the command line of this program. -/
def main (args : List String) : IO UInt32 := do
  let world ← takeWorld (Invocation.parse args)
  let finish := run world args
  keepConfig world finish.files
  (← IO.getStdout).write (ByteArray.mk finish.output.toArray)
  (← IO.getStderr).putStr finish.errors
  return UInt32.ofNat finish.status
