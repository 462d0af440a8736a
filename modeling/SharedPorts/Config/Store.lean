import SharedPorts.Config.Codec
import SharedPorts.FileSystem.Basic

/-!
# `SharedPorts.Config.Store` — the configuration kept in a file

A store knows the path of one file and nothing else: every operation reads the file, and every change
writes it anew. A change is first written to a temporary file beside it, which then takes its place, so
that the file always holds a whole configuration.

Not all that may go wrong with a disk is told here. A `FileSystem` may refuse to make a directory or a file,
and to give a file another name; but it has room for everything and keeps what it is given, so that a file
that could be created is written to its end. A disk that is full, or that fails while the temporary file is
written or synchronised, is left out. Printing a configuration cannot fail, since the roots of its workspaces
are texts; a root that is no text, which could not be printed, is left out as well.

## Contents
- **Paths.** `Store`, and `Store.temporary`.
- **Reading and writing.** `Store.load`, `Store.prepare` and `Store.save`.
- **Changes.** `Store.change`, a change of a configuration carried over to the file.
- **Operations.** `Store.workspaces`, `Store.find`, and one for each change of a configuration.
-/

namespace SharedPorts

/-! ## Paths -/

/-- The path of the file that holds a configuration. -/
structure Store where
  path : Path
  deriving DecidableEq, Repr

namespace Store

/-- The path of the temporary file: the same name with another extension. -/
def temporary (s : Store) : Path := s.path.withExtension "json.tmp"

/-! ## Reading and writing -/

/-- Read the configuration. Where there is no file, it has its defaults. -/
def load (s : Store) (fs : FileSystem) : Except ConfigError Config :=
  if fs.exists? s.path then
    match fs.contentOf s.path with
    | .error e => .error (.unreadable e)
    | .ok bytes =>
      if (Utf8.decode? bytes).isNone then .error (.unreadable .notText)
      else
        match Config.parse? bytes with
        | none => .error .malformed
        | some c => .ok c
  else .ok {}

/-- Create the directory of the file, as far as it is missing. -/
def prepare (s : Store) (fs : FileSystem) : Except SystemError Unit × FileSystem :=
  match s.path.parent? with
  | none => (.ok (), fs)
  | some directory => fs.createDirectories directory

/-- Write the configuration. What a refused request leaves behind is part of the answer. -/
def save (s : Store) (c : Config) (fs : FileSystem) : Except ConfigError Unit × FileSystem :=
  match s.prepare fs with
  | (.error e, fs) => (.error (.noDirectory e), fs)
  | (.ok (), fs) =>
    match fs.writeFile s.temporary c.render with
    | .error e => (.error (.noTemporary e), fs)
    | .ok fs =>
      match fs.rename s.temporary s.path with
      | .error e => (.error (.noRename e), fs)
      | .ok fs => (.ok (), fs)

/-! ## Changes -/

/-- Read the configuration, change it and write it. -/
def change (s : Store) (edit : Config → Except ConfigError Config) (fs : FileSystem) :
    Except ConfigError Unit × FileSystem :=
  match s.load fs with
  | .error e => (.error e, fs)
  | .ok c =>
    match edit c with
    | .error e => (.error e, fs)
    | .ok c => s.save c fs

/-! ## Operations -/

/-- The known workspaces. -/
def workspaces (s : Store) (fs : FileSystem) : Except ConfigError (List Entry) :=
  (·.workspaces) <$> s.load fs

/-- The first workspace of a name. -/
def find (s : Store) (name : String) (fs : FileSystem) : Except ConfigError (Option Entry) :=
  (·.find? name) <$> s.load fs

/-- Add a workspace. -/
def add (s : Store) (entry : Entry) : FileSystem → Except ConfigError Unit × FileSystem :=
  s.change (Config.add entry)

/-- Remove the workspaces of a name. -/
def remove (s : Store) (name : String) : FileSystem → Except ConfigError Unit × FileSystem :=
  s.change (Config.remove name)

/-- Set the level of a port of a workspace. -/
def setLevel (s : Store) (name : String) (port : Port) (level : String) :
    FileSystem → Except ConfigError Unit × FileSystem :=
  s.change (Config.setLevel name port level)

/-- Set the domain of browse addresses. -/
def setPreviewDomain (s : Store) (domain : String) :
    FileSystem → Except ConfigError Unit × FileSystem :=
  s.change (Config.setPreviewDomain domain)

/-- Set the address that local listeners bind to. -/
def setBindAddress (s : Store) (address : IpAddress) :
    FileSystem → Except ConfigError Unit × FileSystem :=
  s.change (Config.setBindAddress address)

end Store

end SharedPorts
