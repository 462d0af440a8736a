import SharedPorts.Text.Blank

/-!
# `SharedPorts.Path` — paths as they are written

A path is kept piece by piece, as it stands between its slashes, and not as the place that it leads to:
that depends on the directories on the way. Two dots lead back only out of a directory that is there, and a
slash at the end asks for a directory.

## Contents
- **Texts.** `Path`, `Path.ofText`, `Path.text` and `Path.size`.
- **Below.** `Path.join`, a path seen from another.
- **Above.** `Path.parents`, nearest first, and `Path.parent?`.
- **Endings.** `Path.Ending` and `Path.split`, a path apart from its last name.
- **Extensions.** `Path.stem` and `Path.withExtension`.
-/

namespace SharedPorts

/-! ## Texts -/

/-- A path: what stands between its slashes. One that begins with a slash leads from the root. -/
structure Path where
  pieces : List String
  deriving DecidableEq, Repr

namespace Path

/-- The path that a text is. -/
def ofText (s : String) : Path := ⟨(Text.fields '/' s.toList).map String.ofList⟩

/-- The text of a path. -/
def text (p : Path) : String := "/".intercalate p.pieces

/-- The size of the text of a path, in bytes. -/
def size (p : Path) : Nat := p.text.utf8ByteSize

/-- Whether nothing is written. -/
def isEmpty (p : Path) : Bool := p.pieces.isEmpty || p.pieces == [""]

/-- Whether a path leads from the root. -/
def isAbsolute (p : Path) : Bool := p.pieces.head? == some "" && !p.isEmpty

/-- Whether a piece leads nowhere: there is nothing in it, or a single dot. -/
def stays (piece : String) : Bool := piece == "" || piece == "."

/-! ## Below -/

/-- The path of `below` as seen from `base`; one that leads from the root stays as it is. -/
def join (base below : Path) : Path :=
  if below.isAbsolute || base.isEmpty then below
  else if base.pieces.getLast? == some "" then ⟨base.pieces.dropLast ++ below.pieces⟩
  else ⟨base.pieces ++ below.pieces⟩

/-! ## Above -/

/-- The path of a first piece and, backwards, the pieces behind it, without what leads nowhere at its end.
    The root keeps its slash. -/
def upTo (first : String) (back : List String) : Path :=
  match back.dropWhile stays with
  | [] => if first == "" then ⟨["", ""]⟩ else ⟨[first]⟩
  | back => ⟨first :: back.reverse⟩

/-- The parents of the path of a first piece and, backwards, the pieces behind it. Nothing is above the
    root, and the empty path is above a single name. -/
def above (first : String) : List String → List Path
  | [] => if first == "" then [] else [⟨[""]⟩]
  | piece :: back => if stays piece then above first back else upTo first back :: above first back

/-- The paths above a path, nearest first. -/
def parents (p : Path) : List Path :=
  match p.pieces with
  | [] => []
  | first :: rest => above first rest.reverse

/-- The path above a path. -/
def parent? (p : Path) : Option Path := p.parents.head?

/-! ## Endings -/

/-- How a path ends: with a name, and perhaps a slash behind it, or without a name, as dots and the root
    do. -/
inductive Ending
  | named (name : String) (slash : Bool)
  | unnamed
  deriving DecidableEq, Repr

/-- The pieces before the last one that is not empty, and how the path ends. -/
def split (p : Path) : List String × Ending :=
  match p.pieces.reverse.dropWhile (· == "") with
  | [] => ([], .unnamed)
  | last :: back =>
    (back.reverse,
      if last == "." || last == ".." then .unnamed else .named last (p.pieces.getLast? == some ""))

/-! ## Extensions -/

/-- A name without its extension, which begins at its last dot; a dot at its beginning begins none. -/
def stem (name : String) : String :=
  match (Text.fields '.' name.toList).reverse with
  | _ :: before :: [] => if before.isEmpty then name else String.ofList before
  | _ :: before :: more => ".".intercalate ((before :: more).reverse.map String.ofList)
  | _ => name

/-- A path whose last name has another extension. A path without a name stays, and where a name at the end
    would leave two dots without its extension, these are what is left. -/
def withExtension (extension : String) (p : Path) : Path :=
  match p.pieces.reverse.dropWhile stays with
  | [] => p
  | name :: back =>
    if name == ".." then p
    else if stem name == "." && p.pieces.getLast? == some name then ⟨back.reverse ++ [".."]⟩
    else ⟨back.reverse ++ [stem name ++ "." ++ extension]⟩

end Path

end SharedPorts
