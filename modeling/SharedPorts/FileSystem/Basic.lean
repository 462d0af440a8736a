import SharedPorts.FileSystem.Node
import SharedPorts.Path
import SharedPorts.SystemError

/-!
# `SharedPorts.FileSystem.Basic` — requests to the file system

Keeping a configuration takes a handful of requests to the file system, each of which may be refused. The
file system is a value here, so that what a refused request leaves behind can be said.

A path is walked piece by piece, and every piece, even an empty one, has to be taken from a directory that
is there. A request that creates something walks to the last name only.

## Contents
- **The file system.** `FileSystem`, `get?`, `put` and `erase`.
- **Walks.** `Trail`, where a walk has come; `step`, `follow`, `walk` and `approach`.
- **Asking.** `find`, `exists?`, `isDirectory`, `contentOf`, `names` and `realPath`.
- **Changing.** `createDirectory`, `createAlong`, `createDirectories`, `writeFile` and `rename`.
-/

namespace SharedPorts

/-! ## The file system -/

/-- What stands in the root, and the place from which paths lead that do not lead from the root. -/
structure FileSystem where
  entries : List (String × Node) := []
  current : Place := []

namespace FileSystem

/-- The root. -/
def root (fs : FileSystem) : Node := .directory fs.entries

/-- What stands at a place. -/
def get? (fs : FileSystem) (p : Place) : Option Node := fs.root.get? p

/-- The file system with another root; a file is none. -/
def withRoot (fs : FileSystem) (root : Node) : FileSystem :=
  match root with
  | .directory entries => { fs with entries }
  | .file _ => fs

/-- Put a file or directory at a place, whose directory has to be there. -/
def put (fs : FileSystem) (p : Place) (node : Node) : FileSystem := fs.withRoot (fs.root.put p node)

/-- Remove what stands at a place. -/
def erase (fs : FileSystem) (p : Place) : FileSystem := fs.withRoot (fs.root.erase p)

theorem root_put (fs : FileSystem) (p : Place) (name : String) (node : Node) :
    (fs.put (p ++ [name]) node).root = fs.root.put (p ++ [name]) node := by
  cases p <;> rfl

theorem root_erase (fs : FileSystem) (p : Place) (name : String) :
    (fs.erase (p ++ [name])).root = fs.root.erase (p ++ [name]) := by
  cases p with
  | nil => rfl
  | cons a p =>
    cases h : fs.entries.lookup a <;> cases p <;> simp [erase, root, withRoot, Node.erase, h]

/-! ## Walks -/

/-- The longest name that the system takes, in bytes. -/
def longestName : Nat := 255

/-- The longest path that the system takes, in bytes. -/
def longestPath : Nat := 4095

/-- The names by which a walk went down from the root, the last one first, each with what stands there. -/
abbrev Trail := List (String × Node)

/-- The place that a walk has come to. -/
def placeOf (trail : Trail) : Place := (trail.map (·.1)).reverse

/-- What stands where a walk has come to. -/
def here (fs : FileSystem) : Trail → Node
  | [] => fs.root
  | (_, node) :: _ => node

/-- What stands under a name in a directory, unless the name is too long. -/
def look (entries : List (String × Node)) (name : String) : Except SystemError (Option Node) :=
  if name.utf8ByteSize > longestName then .error .nameTooLong else .ok (entries.lookup name)

/-- Take a step: an empty piece and a single dot stay, two dots lead back, though not out of the root, and
    a name leads down. All of them take a directory to stand in. -/
def step (fs : FileSystem) (trail : Trail) (piece : String) : Except SystemError Trail :=
  match fs.here trail with
  | .file _ => .error .notADirectory
  | .directory entries =>
    if Path.stays piece then .ok trail
    else if piece == ".." then .ok trail.tail
    else
      match look entries piece with
      | .error e => .error e
      | .ok none => .error .notFound
      | .ok (some node) => .ok ((piece, node) :: trail)

/-- Follow pieces from the root, or from the current place. -/
def follow (fs : FileSystem) (fromRoot : Bool) (pieces : List String) : Except SystemError Trail :=
  ((if fromRoot then [] else fs.current) ++ pieces).foldlM fs.step []

/-- What makes a path no path, wherever it would lead: a null character in it, or nothing at all. -/
def malformed? (p : Path) : Option SystemError :=
  if p.pieces.any (·.toList.contains '\x00') then some .nulInName
  else if p.isEmpty then some .notFound
  else none

/-- What makes a request refuse a path, wherever it would lead. -/
def refused? (p : Path) : Option SystemError :=
  match malformed? p with
  | some e => some e
  | none => if p.size > longestPath then some .nameTooLong else none

/-- Follow a path to its end. -/
def walk (fs : FileSystem) (p : Path) : Except SystemError Trail :=
  match refused? p with
  | some e => .error e
  | none => fs.follow p.isAbsolute p.pieces

/-- A directory, and the name in it that a path ends with. -/
structure Spot where
  directory : Place
  entries : List (String × Node)
  ending : Path.Ending

/-- Follow a path up to its last name. -/
def approach (fs : FileSystem) (p : Path) : Except SystemError Spot :=
  match refused? p with
  | some e => .error e
  | none =>
    match fs.follow p.isAbsolute p.split.1 with
    | .error e => .error e
    | .ok trail =>
      match fs.here trail with
      | .file _ => .error .notADirectory
      | .directory entries => .ok ⟨placeOf trail, entries, p.split.2⟩

/-! ## Asking -/

/-- What stands at the end of a path. -/
def find (fs : FileSystem) (p : Path) : Except SystemError Node := fs.here <$> fs.walk p

/-- Whether a path leads to anything. -/
def exists? (fs : FileSystem) (p : Path) : Bool := (fs.find p).toBool

/-- Whether a path leads to a directory. -/
def isDirectory (fs : FileSystem) (p : Path) : Bool :=
  match fs.find p with
  | .ok (.directory _) => true
  | _ => false

/-- The content of a file. -/
def contentOf (fs : FileSystem) (p : Path) : Except SystemError Bytes :=
  match fs.find p with
  | .error e => .error e
  | .ok (.directory _) => .error .isADirectory
  | .ok (.file bytes) => .ok bytes

/-- The names in a directory, in order; there are none where there is no directory. -/
def names (fs : FileSystem) (p : Path) : List String :=
  match fs.find p with
  | .ok (.directory entries) => (entries.map (·.1)).mergeSort (· ≤ ·)
  | _ => []

/-- The place that a path leads to, however long it is. -/
def realPath (fs : FileSystem) (p : Path) : Except SystemError Place :=
  match malformed? p with
  | some e => .error e
  | none => placeOf <$> fs.follow p.isAbsolute p.pieces

/-! ## Changing -/

/-- Create a directory where nothing stands. -/
def createDirectory (fs : FileSystem) (p : Path) : Except SystemError FileSystem :=
  match fs.approach p with
  | .error e => .error e
  | .ok spot =>
    match spot.ending with
    | .unnamed => .error .alreadyExists
    | .named name _ =>
      match look spot.entries name with
      | .error e => .error e
      | .ok (some _) => .error .alreadyExists
      | .ok none => .ok (fs.put (spot.directory ++ [name]) (.directory []))

/-- Create the directory of the first path, after those of the others if it cannot be created without
    them. It may be there already. Those created before a refusal stay. -/
def createAlong (fs : FileSystem) : List Path → Except SystemError Unit × FileSystem
  | [] => (.ok (), fs)
  | p :: above =>
    match fs.createDirectory p with
    | .ok fs => (.ok (), fs)
    | .error .notFound =>
      match fs.createAlong above with
      | (.error e, fs) => (.error e, fs)
      | (.ok (), fs) =>
        match fs.createDirectory p with
        | .ok fs => (.ok (), fs)
        | .error e => (if fs.isDirectory p then .ok () else .error e, fs)
    | .error e => (if fs.isDirectory p then .ok () else .error e, fs)

/-- Create a directory and those above it, as far as they are missing. -/
def createDirectories (fs : FileSystem) (p : Path) : Except SystemError Unit × FileSystem :=
  if p.isEmpty then (.ok (), fs) else fs.createAlong (p :: p.parents)

/-- Write a file, new or in place of another. -/
def writeFile (fs : FileSystem) (p : Path) (bytes : Bytes) : Except SystemError FileSystem :=
  match fs.approach p with
  | .error e => .error e
  | .ok spot =>
    match spot.ending with
    | .unnamed | .named _ true => .error .isADirectory
    | .named name false =>
      match look spot.entries name with
      | .error e => .error e
      | .ok (some (.directory _)) => .error .isADirectory
      | .ok _ => .ok (fs.put (spot.directory ++ [name]) (.file bytes))

/-- Move a file to another name, where it replaces a file. A slash behind a name asks for a directory. -/
def rename (fs : FileSystem) (source target : Path) : Except SystemError FileSystem :=
  match fs.approach source, fs.approach target with
  | .error e, _ | _, .error e => .error e
  | .ok spot, .ok other =>
    match spot.ending, other.ending with
    | .unnamed, _ | _, .unnamed => .error .busy
    | .named name slash, .named newName newSlash =>
      match look spot.entries name, look other.entries newName with
      | .error e, _ => .error e
      | .ok none, _ => .error .notFound
      | _, .error e => .error e
      | .ok (some (.directory _)), _ => .error .isADirectory
      | .ok (some (.file bytes)), .ok found =>
        if slash || newSlash then .error .notADirectory
        else
          match found with
          | some (.directory _) => .error .isADirectory
          | _ =>
            .ok ((fs.erase (spot.directory ++ [name])).put (other.directory ++ [newName])
              (.file bytes))

end FileSystem

end SharedPorts
