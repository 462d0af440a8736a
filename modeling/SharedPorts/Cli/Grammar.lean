import SharedPorts.IpAddress

/-!
# `SharedPorts.Cli.Grammar` — what may be typed

A command line is a chain of verbs, each with options and perhaps operands of its own. Options of a verb
are also understood behind the verbs below it. The words are taken one by one, and the first word that
cannot stand where it stands decides: a usage error, or the version or help that was asked for. A value in
a word of its own is looked at late, with the next thing that is given to the same verb, so that a version
asked of a verb below comes first.

## Contents
- **Grammars.** `Opt`, `Operands` and `Verb`.
- **Chains.** `Given`, what was given to one verb, with `Given.settle`, a late look at a value, and
  `Chain`, what has been read so far.
- **Words.** `Chain.word`, one word, and `Chain.close`, the end of the line.
- **Answers.** `Chain.value?`, `Chain.has` and `Chain.operands`.
-/

namespace SharedPorts.Cli

/-! ## Grammars -/

/-- What an option takes: nothing, nothing but it may be repeated, or a value with some property. -/
inductive Takes
  | nothing
  | repetition
  | value (accepts : String → Bool)

/-- An option, `--long` or `-s`. -/
structure Opt where
  long : String
  short : Option Char := none
  takes : Takes := .nothing

/-- Whether an option takes a value. -/
def Opt.takesValue (o : Opt) : Bool :=
  match o.takes with
  | .value _ => true
  | _ => false

/-- Whether an option may be given more than once. -/
def Opt.repeats (o : Opt) : Bool :=
  match o.takes with
  | .repetition => true
  | _ => false

/-- Whether an option accepts a value. -/
def Opt.accepts (o : Opt) (value : String) : Bool :=
  match o.takes with
  | .value accepts => accepts value
  | _ => false

/-- How many operands a verb has. -/
inductive Operands
  | none
  | one
  | some
  deriving DecidableEq, Repr

/-- A verb: its names, its options, which of these are understood below it too, its operands, the verbs
    below it, and whether one of those, or anything at all, has to be given. -/
structure Verb where
  name : String
  aliases : List String := []
  shared : List Opt := []
  options : List Opt := []
  operands : Operands := .none
  verbs : List Verb := []
  needsVerb : Bool := false
  needsAnything : Bool := false

/-! ## Chains -/

/-- What was given to a verb: options with their values, and operands, in their order; and an option with
    a value that nobody has looked at yet. -/
structure Given where
  verb : Verb
  values : List (String × String) := []
  operands : List String := []
  unchecked : Option (Opt × String) := none

/-- Keep an option with its value; one that takes none has an empty one. It has to be acceptable, and may
    be repeated only if the option repeats. -/
def Given.keep (g : Given) (o : Opt) (value : String) : Option Given :=
  if o.takesValue && !o.accepts value then none
  else if !o.repeats && g.values.any (·.1 == o.long) then none
  else some { g with values := g.values ++ [(o.long, value)] }

/-- Look at the value that nobody has looked at. -/
def Given.settle (g : Given) : Option Given :=
  match g.unchecked with
  | none => some g
  | some (o, value) => ({ g with unchecked := none } : Given).keep o value

/-- A command line as far as it has been read: the verbs before the current one, outermost first, the
    options that they share, the current verb, an option that waits for its value, and whether only
    operands may follow. -/
structure Chain where
  outer : List Given := []
  inherited : List Opt := []
  here : Given
  pending : Option Opt := none
  operandsOnly : Bool := false

/-- Why reading stops. -/
inductive Halt
  | usage
  | help
  | version (of : String)
  deriving DecidableEq, Repr

namespace Chain

/-- The names of the verbs so far, with hyphens between them. -/
def name (c : Chain) : String :=
  "-".intercalate ((c.outer ++ [c.here]).map (·.verb.name))

/-- The options that are understood here. -/
def known (c : Chain) : List Opt := c.here.verb.options ++ c.here.verb.shared ++ c.inherited

/-! ## Words -/

/-- Go on with a verb below the current one. -/
def enter (c : Chain) (v : Verb) : Chain :=
  { outer := c.outer ++ [c.here]
    inherited := c.inherited ++ c.here.verb.shared
    here := { verb := v } }

/-- The verb of a name below another. -/
def verb? (v : Verb) (word : String) : Option Verb :=
  v.verbs.find? fun w => w.name == word || w.aliases.contains word

/-- Keep an option with its value. -/
def keep (c : Chain) (o : Opt) (value : String) : Except Halt Chain :=
  match c.here.keep o value with
  | none => .error .usage
  | some here => .ok { c with here }

/-- Look at the value that nobody has looked at. -/
def settle (c : Chain) : Except Halt Chain :=
  match c.here.settle with
  | none => .error .usage
  | some here => .ok { c with here }

/-- An option with the value written onto it, or the next word for its value. -/
def option (c : Chain) (o : Opt) (attached : Option String) : Except Halt Chain :=
  match o.takesValue, attached with
  | true, some value => c.keep o value
  | true, none => .ok { c with pending := some o }
  | false, some _ => .error .usage
  | false, none => c.keep o ""

/-- A long option, without its hyphens. -/
def longOption (c : Chain) (word : List Char) : Except Halt Chain :=
  let key := String.ofList (word.takeWhile (· != '='))
  let attached :=
    match word.dropWhile (· != '=') with
    | [] => none
    | _ :: value => some (String.ofList value)
  if attached.isNone && key == "help" then .error .help
  else if attached.isNone && key == "version" then .error (.version c.name)
  else
    match c.known.find? (·.long == key) with
    | none => .error .usage
    | some o => c.option o attached

/-- Short options, without their hyphen. The rest of the word behind one that takes a value is its
    value, with or without an equals sign between them. -/
def shortOptions (c : Chain) : List Char → Except Halt Chain
  | [] => .ok c
  | 'h' :: _ => .error .help
  | 'V' :: _ => .error (.version c.name)
  | s :: rest =>
    match c.known.find? (·.short == some s) with
    | none => .error .usage
    | some o =>
      if o.takesValue then
        match rest with
        | [] => c.option o none
        | '=' :: value => c.option o (some (String.ofList value))
        | value => c.option o (some (String.ofList value))
      else
        match c.keep o "" with
        | .error halt => .error halt
        | .ok c => c.shortOptions rest

/-- An operand, if there is room for one. -/
def operand (c : Chain) (word : String) : Except Halt Chain :=
  let here := { c.here with operands := c.here.operands ++ [word] }
  match c.here.verb.operands with
  | .none => .error .usage
  | .one => if c.here.operands.isEmpty then .ok { c with here } else .error .usage
  | .some => .ok { c with here }

/-- A word that names no verb. -/
def argument (c : Chain) (w : String) : Except Halt Chain :=
  if c.operandsOnly then c.operand w
  else
    match w.toList with
    | ['-', '-'] => .ok { c with operandsOnly := true }
    | '-' :: '-' :: rest => c.longOption rest
    | '-' :: s :: rest => c.shortOptions (s :: rest)
    | _ => c.operand w

/-- The verb that a word names here. -/
def entered? (c : Chain) (w : String) : Option Verb :=
  if c.operandsOnly then none else verb? c.here.verb w

/-- One word. -/
def word (c : Chain) (w : String) : Except Halt Chain :=
  match c.pending, w.toList with
  | some _, '-' :: _ :: _ => .error .usage
  | some o, _ => .ok { c with here := { c.here with unchecked := some (o, w) }, pending := none }
  | none, _ =>
    match c.entered? w, c.settle with
    | some v, _ => .ok (c.enter v)
    | none, .error halt => .error halt
    | none, .ok c => c.argument w

/-- The verbs behind the word `help`: each has to be a verb below the one before, or the word `help`
    itself, below which there are none. -/
def help (v : Verb) : List String → Halt
  | [] => .help
  | w :: ws =>
    match verb? v w with
    | some v => help v ws
    | none => if w == "help" && !v.verbs.isEmpty && ws.isEmpty then .help else .usage

/-- All words. -/
def words (c : Chain) : List String → Except Halt Chain
  | [] => .ok c
  | w :: ws =>
    if w == "help" && !c.here.verb.verbs.isEmpty && c.pending.isNone && !c.operandsOnly then
      .error (help c.here.verb ws)
    else
      match c.word w with
      | .error halt => .error halt
      | .ok c => c.words ws

/-- The end of the line: no option may wait for its value, all values have to be acceptable, and what a
    verb needs has to be there. -/
def close (c : Chain) : Except Halt Chain :=
  match c.pending, c.here.settle, c.outer.mapM Given.settle with
  | none, some here, some outer =>
    let v := here.verb
    if v.needsVerb then .error .usage
    else if v.needsAnything && here.values.isEmpty then .error .usage
    else if v.operands != .none && here.operands.isEmpty then .error .usage
    else .ok { c with here, outer }
  | _, _, _ => .error .usage

/-! ## Answers -/

/-- The value of an option; of several verbs that were given it, the innermost counts. -/
def value? (c : Chain) (long : String) : Option String :=
  (c.here :: c.outer.reverse).findSome? fun l => l.values.lookup long

/-- Whether an option was given. -/
def has (c : Chain) (long : String) : Bool := (c.value? long).isSome

/-- The operands of the innermost verb. -/
def operands (c : Chain) : List String := c.here.operands

/-- The names of the verbs behind the outermost one. -/
def verbs (c : Chain) : List String := (c.outer ++ [c.here]).tail.map (·.verb.name)

end Chain

end SharedPorts.Cli
