import SharedPorts.Cause
import SharedPorts.Json.Reader
import SharedPorts.Jsonc
import SharedPorts.Port

/-!
# `SharedPorts.PortLabels` — labels of ports

A repository may name its ports in `.devcontainer/devcontainer.json`, under the port number in decimal
digits. The file is read leniently as to comments and commas, and of equal keys the last one counts.

## Contents
- **Errors.** `LabelsError`, why there are no labels.
- **Labels.** `PortLabels`, and `PortLabels.label?`.
- **Reading.** `PortLabels.ofTree?` takes a document, `PortLabels.ofFile` a file.
-/

namespace SharedPorts

/-! ## Errors -/

/-- Why the labels of a repository are not known. -/
inductive LabelsError
  | fetch (cause : Cause)
  | invalidJson (fault : Json.Fault)
  | shape
  | cancelled
  | abandoned
  deriving DecidableEq, Repr

/-- What an error says. -/
def LabelsError.message : LabelsError → String
  | .fetch _ => "error getting content"
  | .invalidJson _ => "failed to convert json to standard json"
  | .shape => "error unmarshaling"
  | .cancelled => "metadata fetch cancelled"
  | .abandoned => "metadata fetch ended without a result"

/-- What the errors under an error say, outermost first. -/
def LabelsError.causes : LabelsError → List String
  | .fetch cause => cause.chain
  | .invalidJson fault => [fault.message]
  | .shape => ["json data"]
  | .cancelled | .abandoned => []

/-! ## Labels -/

/-- The part of a repository's file that concerns ports: a label under each key. -/
structure PortLabels where
  labels : List (String × String)
  deriving DecidableEq, Repr

/-- No labels at all. -/
def PortLabels.empty : PortLabels := ⟨[]⟩

/-- The label of a port, whose key is its number in decimal digits. -/
def PortLabels.label? (l : PortLabels) (port : Port) : Option String :=
  l.labels.lookup (toString port.toNat)

/-- Where the file stands in a repository. -/
def PortLabels.path : String := ".devcontainer/devcontainer.json"

/-! ## Reading -/

namespace PortLabels

open Json

/-- A label, which is a string. -/
def labelOf? : Tree → Option String
  | .string l => l.text?
  | _ => none

/-- The label in the attributes of a port. They are an object, or an array of the fields in their order;
    a missing label is empty. -/
def attributes? : Tree → Option String
  | .object members =>
    match (lastOfEach members).lookup "label" with
    | none => some ""
    | some t => labelOf? t
  | .array [] => some ""
  | .array [t] => labelOf? t
  | _ => none

/-- The label under each key of an object. -/
def labels? : Tree → Option (List (String × String))
  | .object members => (lastOfEach members).mapM fun (key, t) => (key, ·) <$> attributes? t
  | _ => none

/-- The labels in a document, which is an object or an array of the fields in their order. -/
def ofTree? : Tree → Option PortLabels
  | .object members =>
    match (lastOfEach members).lookup "portsAttributes" with
    | none => some empty
    | some t => PortLabels.mk <$> labels? t
  | .array [] => some empty
  | .array [t] => PortLabels.mk <$> labels? t
  | _ => none

/-- The labels in a file. -/
def ofFile (bs : Bytes) : Except LabelsError PortLabels :=
  match read .full (Jsonc.normalize bs) with
  | .error fault => .error (.invalidJson fault)
  | .ok t =>
    match ofTree? t with
    | none => .error .shape
    | some labels => .ok labels

end PortLabels

end SharedPorts
