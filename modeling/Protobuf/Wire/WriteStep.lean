import Protobuf.Wire.Scalar

/-! # Writing records

What a writer is asked to do, and the bytes that each request adds.  A request
adds all of its bytes or, when a field number in it is out of range, none.

* `WriteStep`: one request; a nested record holds requests of its own.
* `WriteStep.bytes`: the bytes of a request.  Of several misuses in one request the
  one found first is reported, and the body of a record comes before its key.
-/

namespace Protobuf

inductive WriteStep
  /-- A key alone. -/
  | tag (field : Nat) (wireType : WireType)
  | payload (bytes : Bytes)
  | scalar (field : Nat) (k : Scalar) (v : k.Carrier)
  /-- A record with many scalars, which is written even when there are none. -/
  | packed (field : Nat) (k : Scalar) (vs : List k.Carrier)
  /-- A record whose payload is what the steps of `body` write. -/
  | nested (field : Nat) (body : List WriteStep)

def recordBytes (field : Nat) (wireType : WireType) (payload : Bytes) : Except Misuse Bytes :=
  match FieldKey.encode ⟨field, wireType⟩ with
  | .error e => .error e
  | .ok key => .ok (key ++ payload)

mutual

def WriteStep.bytes : WriteStep → Except Misuse Bytes
  | .tag field wireType => recordBytes field wireType []
  | .payload bytes => .ok bytes
  | .scalar field k v => recordBytes field k.wireType (k.put v)
  | .packed field k vs => recordBytes field .delimited (delimit (k.pack vs))
  | .nested field body =>
    match bodyBytes body with
    | .error e => .error e
    | .ok payload => recordBytes field .delimited (delimit payload)

def bodyBytes : List WriteStep → Except Misuse Bytes
  | [] => .ok []
  | step :: rest =>
    match step.bytes with
    | .error e => .error e
    | .ok front =>
      match bodyBytes rest with
      | .error e => .error e
      | .ok back => .ok (front ++ back)

end

structure Writer where
  written : Bytes := []
deriving DecidableEq, Repr

namespace Writer

def perform (w : Writer) (step : WriteStep) : Except Misuse Unit × Writer :=
  match step.bytes with
  | .ok bytes => (.ok (), ⟨w.written ++ bytes⟩)
  | .error e => (.error e, w)

def size (w : Writer) : Nat := w.written.length

def isEmpty (w : Writer) : Bool := w.written.isEmpty

end Writer

end Protobuf
