import SharedPorts.Json.Tree

/-!
# `SharedPorts.Json.Reader` — documents from bytes

The reader takes one byte at a time and never looks ahead. Its state is the stack of containers that are
still open and what may stand next; a byte either leads to another state or is refused. So the byte at
fault, and with it the line that is reported, is the first one that no document could continue with.

## Contents
- **Faults.** `Fault`: the input ended too early, or broke the rules, and on which line.
- **Care.** Reading in full also asks that strings denote texts, numbers are in range and containers are
  not nested deeper than `maxDepth`; reading for shape asks none of that.
- **States.** `Frame`, `Number`, `Mode`, `State`.
- **Steps.** `State.step`, one byte, and `State.finish`, the end of the input.
- **Documents.** `read`, the document that a byte string writes.
-/

namespace SharedPorts.Json

/-! ## Faults -/

/-- How a text fails to be a document. -/
inductive FaultKind
  | unfinished
  | malformed
  deriving DecidableEq, Repr

/-- How, and on which line, a text fails to be a document. -/
structure Fault where
  kind : FaultKind
  line : Nat
  deriving DecidableEq, Repr

/-- What a fault says. -/
def Fault.message (f : Fault) : String :=
  match f.kind with
  | .unfinished => s!"json eof line {f.line}"
  | .malformed => s!"json syntax line {f.line}"

/-- Where a step refuses a byte: at the byte itself, or at what stood before it. -/
inductive Refusal
  | here
  | before
  deriving DecidableEq, Repr

/-! ## Care -/

/-- How much is asked of a document beyond its shape. -/
inductive Care
  | full
  | shape
  deriving DecidableEq, Repr

/-- How many containers may be open at once. -/
def maxDepth : Nat := 127

/-- Whether another container may be opened inside `depth` others. -/
def Care.admitsDepth (care : Care) (depth : Nat) : Bool :=
  match care with
  | .full => depth < maxDepth
  | .shape => true

/-- Whether a finished number is accepted. -/
def Care.admitsNumber (care : Care) (x : Numeral) : Bool :=
  match care with
  | .full => x.inRange
  | .shape => true

/-- Whether a finished string is accepted. -/
def Care.admitsString (care : Care) (l : Literal) : Bool :=
  match care with
  | .full => l.text?.isSome
  | .shape => true

/-! ## States -/

/-- A container that waits for the value in it to be finished; what it has so far is kept last first. -/
inductive Frame
  | array (items : List Tree)
  | object (members : Members) (key : Literal)
  deriving Repr

/-- How far a number has been read. -/
inductive NumberPoint
  | sign
  | zero
  | integer
  | dot
  | fraction
  | mark
  | exponentSign
  | exponent
  deriving DecidableEq, Repr

/-- Whether a number may end here. -/
def NumberPoint.complete : NumberPoint → Bool
  | .zero | .integer | .fraction | .exponent => true
  | .sign | .dot | .mark | .exponentSign => false

/-- How far a string has been read: between pieces, behind a backslash, or within the digits of a
    unit. -/
inductive StringPoint
  | plain
  | escape
  | digits (seen : Bytes)
  deriving DecidableEq, Repr

/-- What a string will be: a value, or the next key of an object with some members. -/
inductive StringRole
  | value
  | key (members : Members)
  deriving Repr

/-- What may stand next. -/
inductive Mode
  /-- A value. -/
  | value
  /-- The first item of an array, or its end. -/
  | firstItem
  /-- A comma, or the end of an array. -/
  | afterItem (items : List Tree)
  /-- The first key of an object, or its end. -/
  | firstKey
  /-- Another key. -/
  | nextKey (members : Members)
  /-- The colon behind a key. -/
  | colon (members : Members) (key : Literal)
  /-- A comma, or the end of an object. -/
  | afterMember (members : Members)
  /-- The rest of a word. -/
  | word (left : Bytes) (meaning : Tree)
  /-- More of a number, whose digits are kept last first. -/
  | number (point : NumberPoint) (x : Numeral)
  /-- More of a string, whose pieces are kept last first. -/
  | string (role : StringRole) (point : StringPoint) (pieces : Literal)
  /-- Nothing but blanks. -/
  | done (t : Tree)
  deriving Repr

/-- The state of a reader: the open containers, innermost first, and what may stand next. -/
structure State where
  stack : List Frame
  mode : Mode
  deriving Repr

/-- The state before the first byte. -/
def State.start : State := ⟨[], .value⟩

/-! ## Steps -/

/-- The blanks between tokens. -/
def isSpace (b : UInt8) : Bool := b == 0x20 || b == 0x09 || b == 0x0A || b == 0x0D

/-- The state after a finished value. -/
def State.close (stack : List Frame) (t : Tree) : State :=
  match stack with
  | [] => ⟨[], .done t⟩
  | .array items :: stack => ⟨stack, .afterItem (t :: items)⟩
  | .object members key :: stack => ⟨stack, .afterMember ((key, t) :: members)⟩

/-- The first byte of a value. -/
def openValue (care : Care) (stack : List Frame) (b : UInt8) : Except Refusal State :=
  if b == 0x22 then .ok ⟨stack, .string .value .plain []⟩
  else if b == 0x5B then
    if care.admitsDepth stack.length then .ok ⟨stack, .firstItem⟩ else .error .here
  else if b == 0x7B then
    if care.admitsDepth stack.length then .ok ⟨stack, .firstKey⟩ else .error .here
  else if b == 0x2D then .ok ⟨stack, .number .sign ⟨true, [], [], none⟩⟩
  else if b == 0x74 then .ok ⟨stack, .word [0x72, 0x75, 0x65] (.bool true)⟩
  else if b == 0x66 then .ok ⟨stack, .word [0x61, 0x6C, 0x73, 0x65] (.bool false)⟩
  else if b == 0x6E then .ok ⟨stack, .word [0x75, 0x6C, 0x6C] .null⟩
  else
    match Digit.ofByte? b with
    | some d => .ok ⟨stack, .number (if d.val = 0 then .zero else .integer) ⟨false, [d], [], none⟩⟩
    | none => .error .here

/-- The byte behind a finished value, by the place that the value stands in. -/
def afterValue (stack : List Frame) (mode : Mode) (b : UInt8) : Except Refusal State :=
  if isSpace b then .ok ⟨stack, mode⟩
  else
    match mode with
    | .afterItem items =>
      if b == 0x2C then .ok ⟨.array items :: stack, .value⟩
      else if b == 0x5D then .ok (.close stack (.array items.reverse))
      else .error .here
    | .afterMember members =>
      if b == 0x2C then .ok ⟨stack, .nextKey members⟩
      else if b == 0x7D then .ok (.close stack (.object members.reverse))
      else .error .here
    | _ => .error .here

/-- A digit more of a number whose digits are kept last first, by the part that it belongs to. -/
def Numeral.push (x : Numeral) (point : NumberPoint) (d : Digit) : Numeral :=
  match point with
  | .sign | .zero | .integer => { x with integer := d :: x.integer }
  | .dot | .fraction => { x with fraction := d :: x.fraction }
  | .mark | .exponentSign | .exponent =>
    let e := x.exponent.getD ⟨false, []⟩
    { x with exponent := some { e with digits := d :: e.digits } }

/-- A number with the digits of every part turned around. -/
def Numeral.turned (x : Numeral) : Numeral where
  negative := x.negative
  integer := x.integer.reverse
  fraction := x.fraction.reverse
  exponent := x.exponent.map fun e => { e with digits := e.digits.reverse }

/-- Turning a number around twice changes nothing. -/
theorem Numeral.turned_turned (x : Numeral) : x.turned.turned = x := by
  obtain ⟨negative, integer, fraction, exponent⟩ := x
  cases exponent <;> simp [Numeral.turned]

/-- The point behind a digit, unless no digit may stand there. -/
def NumberPoint.afterDigit? (point : NumberPoint) (d : Digit) : Option NumberPoint :=
  match point with
  | .sign => some (if d.val = 0 then .zero else .integer)
  | .zero => none
  | .integer => some .integer
  | .dot | .fraction => some .fraction
  | .mark | .exponentSign | .exponent => some .exponent

/-- One byte within a number, or behind it: the byte that ends a number also belongs to what
    follows. -/
def stepNumber (care : Care) (stack : List Frame) (point : NumberPoint) (x : Numeral) (b : UInt8) :
    Except Refusal State :=
  match Digit.ofByte? b with
  | some d =>
    match point.afterDigit? d with
    | some next => .ok ⟨stack, .number next (x.push point d)⟩
    | none => .error .here
  | none =>
    if b == 0x2E && (point == .zero || point == .integer) then .ok ⟨stack, .number .dot x⟩
    else if (b == 0x65 || b == 0x45) && (point == .zero || point == .integer || point == .fraction) then
      .ok ⟨stack, .number .mark { x with exponent := some ⟨false, []⟩ }⟩
    else if (b == 0x2B || b == 0x2D) && point == .mark then
      .ok ⟨stack, .number .exponentSign { x with exponent := some ⟨b == 0x2D, []⟩ }⟩
    else if !point.complete then .error .here
    else if !care.admitsNumber x.turned then .error .before
    else
      let closed := State.close stack (.number x.turned)
      afterValue closed.stack closed.mode b

/-- Whether a full reading waits for the second half of a surrogate pair. -/
def owesHalf (care : Care) (pieces : Literal) : Bool :=
  match care, pieces with
  | .full, .unit u :: _ => isHighHalf u
  | _, _ => false

/-- The state behind a string's closing quote. -/
def closeString (care : Care) (stack : List Frame) (role : StringRole) (l : Literal) :
    Except Refusal State :=
  if !care.admitsString l then .error .here
  else
    match role with
    | .value => .ok (.close stack (.string l))
    | .key members => .ok ⟨stack, .colon members l⟩

/-- One byte within a string. -/
def stepString (care : Care) (stack : List Frame) (role : StringRole) (point : StringPoint)
    (pieces : Literal) (b : UInt8) : Except Refusal State :=
  let owes := owesHalf care pieces
  match point with
  | .plain =>
    if b == 0x5C then .ok ⟨stack, .string role .escape pieces⟩
    else if owes || b < 0x20 then .error .here
    else if b == 0x22 then closeString care stack role pieces.reverse
    else .ok ⟨stack, .string role .plain (.byte b :: pieces)⟩
  | .escape =>
    if b == 0x75 then .ok ⟨stack, .string role (.digits []) pieces⟩
    else
      match Escape.ofMark? b with
      | some e => if owes then .error .here else .ok ⟨stack, .string role .plain (.escape e :: pieces)⟩
      | none => .error .here
  | .digits seen =>
    if seen.length < 3 then .ok ⟨stack, .string role (.digits (seen ++ [b])) pieces⟩
    else
      match unitOfHex? (seen ++ [b]) with
      | none => .error .here
      | some u =>
        if care == .full && owes != isLowHalf u then .error .here
        else .ok ⟨stack, .string role .plain (.unit u :: pieces)⟩

/-- One byte. -/
def State.step (care : Care) (s : State) (b : UInt8) : Except Refusal State :=
  match s.mode with
  | .value => if isSpace b then .ok s else openValue care s.stack b
  | .firstItem =>
    if isSpace b then .ok s
    else if b == 0x5D then .ok (.close s.stack (.array []))
    else openValue care (.array [] :: s.stack) b
  | .firstKey =>
    if isSpace b then .ok s
    else if b == 0x7D then .ok (.close s.stack (.object []))
    else if b == 0x22 then .ok ⟨s.stack, .string (.key []) .plain []⟩
    else .error .here
  | .nextKey members =>
    if isSpace b then .ok s
    else if b == 0x22 then .ok ⟨s.stack, .string (.key members) .plain []⟩
    else .error .here
  | .colon members key =>
    if isSpace b then .ok s
    else if b == 0x3A then .ok ⟨.object members key :: s.stack, .value⟩
    else .error .here
  | .word left meaning =>
    match left with
    | [] => .error .here
    | [c] => if b == c then .ok (.close s.stack meaning) else .error .here
    | c :: left => if b == c then .ok ⟨s.stack, .word left meaning⟩ else .error .here
  | .number point x => stepNumber care s.stack point x b
  | .string role point pieces => stepString care s.stack role point pieces b
  | .afterItem _ | .afterMember _ | .done _ => afterValue s.stack s.mode b

/-- The document at the end of the input, which may also end a number. -/
def State.finish (care : Care) (s : State) : Except FaultKind Tree :=
  match s.mode with
  | .done t => .ok t
  | .number point x =>
    if !point.complete then .error .unfinished
    else if !care.admitsNumber x.turned then .error .malformed
    else
      match s.stack with
      | [] => .ok (.number x.turned)
      | _ :: _ => .error .unfinished
  | _ => .error .unfinished

/-! ## Documents -/

/-- The line behind a byte that stands on line `line`. -/
def lineAfter (line : Nat) (b : UInt8) : Nat := if b == 0x0A then line + 1 else line

/-- Read on from a state, on a given line. -/
def readFrom (care : Care) (line : Nat) (s : State) : Bytes → Except Fault Tree
  | [] => (s.finish care).mapError (⟨·, line⟩)
  | b :: bs =>
    match s.step care b with
    | .ok s => readFrom care (lineAfter line b) s bs
    | .error .here => .error ⟨.malformed, lineAfter line b⟩
    | .error .before => .error ⟨.malformed, line⟩

/-- Read a document. -/
def read (care : Care) (bs : Bytes) : Except Fault Tree := readFrom care 1 .start bs

end SharedPorts.Json
