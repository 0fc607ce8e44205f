import Protobuf.Wire.Scalar

/-! # Cursors

A cursor walks over the records of an encoded message.  It stands before the first
record, on a record whose payload is unread or read, or behind the last one.  It
may be used on after a failure, so every operation returns the cursor that it
leaves behind.

* `Cursor.next` passes over an unread payload by itself.
* `Cursor.read`, `readRepeated`, `readBytes`, `readText`, `enter`, `skip`: each reads
  the payload of the current record once.
-/

namespace Protobuf

def nestingLimit : Nat := 100

inductive CursorState
  | notStarted
  | positioned (key : FieldKey) (consumed : Bool)
  | exhausted
deriving DecidableEq, Repr

/-- A cursor: the bytes ahead, where it stands, and how deep it is nested. -/
structure Cursor where
  ahead : Bytes
  state : CursorState := .notStarted
  depth : Nat := 0
deriving DecidableEq, Repr

/-- Why a cursor could not do what it was asked. -/
inductive CursorFault
  | misuse (m : Misuse)
  | malformed (e : DecodeError)
deriving DecidableEq, Repr

namespace Cursor

/-- What an operation answers, and the cursor that it leaves. -/
abbrev Outcome (α : Type) := Except CursorFault α × Cursor

/-- Moves to the next record, passing over the payload of the current one if it was
    not read.  `false` means that the input has ended, and stays the answer from
    then on.  A failed move leaves the cursor standing where it stood. -/
def next (c : Cursor) : Except DecodeError Bool × Cursor :=
  match c.state with
  | .exhausted => (.ok false, c)
  | .positioned key false =>
    match Payload.skip key.wireType c.ahead with
    | (.error e, rest) => (.error e, { c with ahead := rest })
    | (.ok (), rest) => advance { c with ahead := rest }
  | .positioned _ true => advance c
  | .notStarted => advance c
where
  advance (c : Cursor) : Except DecodeError Bool × Cursor :=
    match c.ahead with
    | [] => (.ok false, { c with state := .exhausted })
    | bytes@(_ :: _) =>
      match FieldKey.decode bytes with
      | (.error e, rest) => (.error e, { c with ahead := rest })
      | (.ok key, rest) =>
        if key.wireType.isGroup then (.error .deprecatedGroup, { c with ahead := rest })
        else (.ok true, { c with ahead := rest, state := .positioned key false })

def key (c : Cursor) : Except Misuse FieldKey :=
  match c.state with
  | .positioned key _ => .ok key
  | .notStarted | .exhausted => .error .notPositioned

def fieldNumber (c : Cursor) : Except Misuse Nat := c.key.map FieldKey.number

def wireType (c : Cursor) : Except Misuse WireType := c.key.map FieldKey.wireType

/-- Marks the payload of the current record as read, if it is unread and laid out as
    `expected`. -/
def begin (c : Cursor) (expected : WireType) : Except CursorFault Cursor :=
  match c.state with
  | .notStarted | .exhausted => .error (.misuse .notPositioned)
  | .positioned key true => .error (.misuse (.alreadyRead key.number))
  | .positioned key false =>
    if key.wireType = expected then .ok { c with state := .positioned key true }
    else .error (.malformed (.wireTypeMismatch key.number expected key.wireType))

def content (c : Cursor) (expected : WireType) : Outcome (Payload expected) :=
  match c.begin expected with
  | .error fault => (.error fault, c)
  | .ok c =>
    match Payload.take expected c.ahead with
    | (.error e, rest) => (.error (.malformed e), { c with ahead := rest })
    | (.ok p, rest) => (.ok p, { c with ahead := rest })

def read (c : Cursor) (k : Scalar) : Outcome k.Carrier :=
  match c.content k.wireType with
  | (.error fault, c) => (.error fault, c)
  | (.ok p, c) =>
    match k.ofPayload p with
    | .ok v => (.ok v, c)
    | .error e => (.error (.malformed e), c)

def readBytes (c : Cursor) : Outcome Bytes := c.read .bytes

def readText (c : Cursor) : Outcome String := c.read .string

/-- Reads the current record of a repeated field, packed or not, onto the end of
    `values`.  Of a packed record that is malformed, the values before the fault are
    kept. -/
def readRepeated (c : Cursor) (k : Scalar) (values : List k.Carrier) :
    Outcome Unit × List k.Carrier :=
  match c.wireType with
  | .error m => ((.error (.misuse m), c), values)
  | .ok .delimited =>
    match c.content .delimited with
    | (.error fault, c) => ((.error fault, c), values)
    | (.ok bytes, c) =>
      match k.unpack bytes with
      | (.ok (), vs) => ((.ok (), c), values ++ vs)
      | (.error e, vs) => ((.error (.malformed e), c), values ++ vs)
  | .ok _ =>
    match c.read k with
    | (.ok v, c) => ((.ok (), c), values ++ [v])
    | (.error fault, c) => ((.error fault, c), values)

/-- Opens a cursor over the payload of the current record, one level deeper.  The
    payload counts as read even when the limit forbids to enter it. -/
def enter (c : Cursor) : Outcome Cursor :=
  match c.content .delimited with
  | (.error fault, c) => (.error fault, c)
  | (.ok bytes, c) =>
    if nestingLimit < c.depth + 1 then (.error (.malformed (.nestingLimit nestingLimit)), c)
    else (.ok { ahead := bytes, depth := c.depth + 1 }, c)

def skip (c : Cursor) : Outcome Unit :=
  match c.key with
  | .error m => (.error (.misuse m), c)
  | .ok key =>
    match c.begin key.wireType with
    | .error fault => (.error fault, c)
    | .ok c =>
      match Payload.skip key.wireType c.ahead with
      | (.error e, rest) => (.error (.malformed e), { c with ahead := rest })
      | (.ok (), rest) => (.ok (), { c with ahead := rest })

end Cursor

end Protobuf
