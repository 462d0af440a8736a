import SharedPorts.Cli.Table
import SharedPorts.Config.Codec
import SharedPorts.Json.Printer
import SharedPorts.Service.Run
import SharedPorts.Text.Quoted

/-!
# `SharedPorts.Cli.Report` — what is printed

Results go to the output, as tables or as documents; log lines and errors go to the error output.

## Contents
- **Errors.** `Failure`, and `Failure.report`, an error with its causes.
- **Log.** `logChar`, the characters of log lines, and `logText`.
- **Documents.** `rowTree`, `linesText` and `documentText`.
- **Tables.** `tableLine`, `portTable`, `workspaceTable` and `configLines`.
-/

namespace SharedPorts.Cli

/-! ## Errors -/

/-- What an error says, and what the errors under it say, outermost first. -/
structure Failure where
  message : String
  causes : List String := []
  deriving DecidableEq, Repr

/-- A text whose lines after the first begin with an indentation. -/
def indented (first rest text : String) : String :=
  first ++ ("\n" ++ rest).intercalate ((Text.fields '\n' text.toList).map String.ofList)

/-- Causes with their numbers. -/
def numbered : Nat → List String → List String
  | _, [] => []
  | n, cause :: causes =>
    let number := toString n
    let gap := String.ofList (List.replicate (5 - number.length) ' ')
    indented (gap ++ number ++ ": ") "       " cause :: numbered (n + 1) causes

/-- An error as it is reported. Several causes are numbered. -/
def Failure.report (f : Failure) : String :=
  let causes :=
    match f.causes with
    | [] => []
    | [cause] => ["", "Caused by:", indented "    " "    " cause]
    | causes => ["", "Caused by:"] ++ numbered 0 causes
  String.join ((("Error: " ++ f.message) :: causes).map (· ++ "\n"))

/-! ## Log -/

/-- The name of a level, five characters wide. -/
def levelName : Level → String
  | .debug => "DEBUG"
  | .info => " INFO"
  | .warn => " WARN"

/-- A character as it is logged. The controls that steer a terminal, bell, backspace, form feed, escape,
    delete and those above them, are spelled out, so that no name in a message can do so. -/
def logChar (c : Char) : String :=
  let n := c.toNat
  if n = 0x07 ∨ n = 0x08 ∨ n = 0x0C then "\\x0" ++ Text.hex n
  else if n = 0x1B ∨ n = 0x7F then "\\x" ++ Text.hex n
  else if 0x80 ≤ n ∧ n ≤ 0x9F then "\\u\x7b" ++ Text.hex n ++ "\x7d"
  else c.toString

/-- The lines of a log; details are shown only when asked for. -/
def logText (verbose : Bool) (log : List LogLine) : String :=
  String.join ((log.filter fun l => verbose || l.level != .debug).map fun l =>
    levelName l.level ++ " " ++ String.join (l.text.toList.map logChar) ++ "\n")

/-! ## Documents -/

/-- The document of a row. -/
def rowTree (r : ListingRow) : Json.Tree :=
  .object
    [Json.member "label" (.ofString r.label), Json.member "port" (.ofNat r.port.toNat),
      Json.member "privacy" (.ofString r.privacy), Json.member "browseURL" (.ofString r.browseUrl)]

/-- The bytes of some lines. -/
def linesText (lines : List String) : Bytes := Utf8.encode (String.join (lines.map (· ++ "\n")))

/-- A document on lines of its own. -/
def documentText (t : Json.Tree) : Bytes := t.render 0 ++ [0x0A]

/-! ## Tables -/

/-- A line of a table: texts with the widths of their columns, and the text of the last column. -/
def tableLine (columns : List (String × Nat)) (last : String) : String :=
  " ".intercalate (columns.map (fun (text, width) => pad (shorten text width) width) ++ [last])

/-- A listing of shared ports. -/
def portTable (rows : List ListingRow) : List String :=
  if rows.isEmpty then ["No shared ports found."]
  else
    [tableLine [("LABEL", 20), ("PORT", 6), ("PRIVACY", 10)] "BROWSE URL", rule]
      ++ rows.map (fun r =>
        tableLine [(r.label, 20), (toString r.port, 6), (r.privacy, 10)] r.browseUrl)
      ++ ["", s!"Total: {rows.length} ports"]

/-- A list of workspaces. -/
def workspaceTable (workspaces : List Entry) : List String :=
  if workspaces.isEmpty then ["No workspaces configured."]
  else
    [tableLine [("NAME", 24), ("HOST", 16)] "ROOT", rule]
      ++ workspaces.map fun e => tableLine [(e.name, 24), (e.host, 16)] e.root

/-- A workspace and its levels, on one line. -/
def entryLine (e : Entry) : String :=
  let levels := e.privacy.entries.map fun (port, level) => s!"{port}={level}"
  let all := ", ".intercalate levels
  if levels.isEmpty then s!"  {e.name}" else s!"  {e.name} ({all})"

/-- A configuration and its place. -/
def configLines (place : String) (c : Config) : List String :=
  [s!"Config file:    {place}", s!"Preview domain: {c.previewDomain}",
    s!"Bind address:   {c.bindAddress.text}", s!"Workspaces:     {c.workspaces.length}"]
    ++ c.workspaces.map entryLine

end SharedPorts.Cli
