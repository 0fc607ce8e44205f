import Protobuf.Conformance.Schema
import Protobuf.Schema.Binary
import Protobuf.Schema.JsonMapping

/-! # Running conformance tests

A test names a message type, gives a message in one format and asks for it back in
another.  Tests arrive in frames, a length of four bytes and a request, and each is
answered with a frame.

* `TestRequest.run`: the outcome of one test.
* `serve`: the frames that answer a stream of frames, until the input ends or a
  request cannot be answered.
-/

namespace Protobuf.Conformance

open TestMessage (schema)

inductive TestPayload
  | protobuf (bytes : Bytes)
  | json (text : String)
  | jspb (text : String)
  | textFormat (text : String)
deriving DecidableEq, Repr

structure TestRequest where
  payload : Option TestPayload
  outputFormat : Int32
  messageType : String
deriving DecidableEq, Repr

inductive TestOutcome
  /-- The payload could not be read, of which `text` is the text if it has one. -/
  | parseError (typeName text : String) (cause : DecodeError)
  | serializeError (cause : EncodeError)
  | runtimeError (message : String)
  | protobuf (bytes : Bytes)
  | json (text : String)
  | skipped (reason : String)
deriving DecidableEq, Repr

/-- The message of a payload, or the outcome of a test that has none to go on with. -/
def TestPayload.read (r : TestMessage) : Option TestPayload → Except TestOutcome Message
  | some (.protobuf bytes) => parsed "" (Message.decode schema r bytes)
  | some (.json text) => parsed text (Message.ofJsonText schema r text)
  | some (.jspb _) => .error (.skipped "JSPB input not supported")
  | some (.textFormat _) => .error (.skipped "Text format input not supported")
  | none => .error (.runtimeError "No input payload specified")
where
  /-- A message that was read, or what kept it from being read. -/
  parsed (text : String) : Except DecodeError Message → Except TestOutcome Message
    | .ok m => .ok m
    | .error e => .error (.parseError (schema r).name text e)

/-- What asking for a message in a format comes to: no outcome where writing it overflows. -/
def writeAs (r : TestMessage) (format : Int32) (m : Message) : Option TestOutcome :=
  match TestMessage.wireFormat.nameOf? format with
  | some "PROTOBUF" => some (.protobuf (Message.encode schema r m))
  | some "JSON" =>
    match Message.toJsonText schema r m with
    | .ok text => some (.json text)
    | .error (.refused e) => some (.serializeError e)
    | .error .overflow => none
  | some "JSPB" => some (.skipped "JSPB output not supported")
  | some "TEXT_FORMAT" => some (.skipped "Text format output not supported")
  | _ => some (.skipped "Output format unspecified")

def testable? (name : String) : Option TestMessage :=
  [TestMessage.allTypes, .hat, .scalars, .tree, .wardrobe].find? fun r => (schema r).name = name

/-- The outcome of a test, if it has one.  The list of expected failures, which is asked for
    as if it were a test, is empty. -/
def TestRequest.run (request : TestRequest) : Option TestOutcome :=
  if request.messageType = (schema .failureSet).name then
    some (.protobuf (Message.encode schema .failureSet (schema .failureSet).default))
  else
    match testable? request.messageType with
    | none => some (.runtimeError ("Message type " ++ request.messageType ++ " not supported"))
    | some r =>
      match TestPayload.read r request.payload with
      | .error outcome => some outcome
      | .ok m => writeAs r request.outputFormat m

/-! ## Requests and responses as messages -/

def TestPayload.ofMember? : Option (Nat × Value) → Option TestPayload
  | some (1, .scalar .bytes bytes) => some (.protobuf bytes)
  | some (2, .scalar .string text) => some (.json text)
  | some (7, .scalar .string text) => some (.jspb text)
  | some (8, .scalar .string text) => some (.textFormat text)
  | _ => none

def TestRequest.ofMessage : Message → TestRequest
  | [.implicit .int32 format, .implicit .string messageType, _, _, .oneof payload] =>
    ⟨TestPayload.ofMember? payload, format, messageType⟩
  | _ => ⟨none, 0, ""⟩

/-- The member of a response that an outcome is, with what the parser of JSON texts `said`
    about the text of a payload. -/
def TestOutcome.toMember (said : String → String) : TestOutcome → Nat × Value
  | .parseError typeName text cause =>
    (1, .scalar .string ("Failed to parse " ++ typeName ++ ": " ++ cause.message (said text)))
  | .runtimeError message => (2, .scalar .string message)
  | .protobuf bytes => (3, .scalar .bytes bytes)
  | .json text => (4, .scalar .string text)
  | .skipped reason => (5, .scalar .string reason)
  | .serializeError cause => (6, .scalar .string cause.message)

def TestOutcome.encode (said : String → String) (outcome : TestOutcome) : Bytes :=
  Message.encode schema .response [.oneof (some (outcome.toMember said))]

/-! ## Frames -/

def frame (bytes : Bytes) : Bytes := Bytes.ofNat 4 bytes.length ++ bytes

/-- Why serving ended before the input did. -/
inductive ServeError
  | truncatedRequest
  /-- A request is no message. -/
  | undecodable (e : DecodeError)
  /-- A response is too long for the length of a frame. -/
  | responseTooLong (size : Nat)
deriving DecidableEq, Repr

def ServeError.message : ServeError → String
  | .truncatedRequest => "failed to read request"
  | .undecodable _ => "failed to decode ConformanceRequest"
  | .responseTooLong size => s!"response of {size} bytes does not fit a frame"

/-- How serving ends if not well: with an error, or with the run, where a test overflows. -/
inductive ServeFault
  | failed (e : ServeError)
  | overflow
deriving DecidableEq, Repr

structure Exchange where
  outcome : TestOutcome
  frame : Bytes
deriving DecidableEq, Repr

/-- Answers the framed requests of `input` in turn.  Serving ends well where no whole
    length is left. -/
def serve (said : String → String) (input : Bytes) : Except ServeFault Unit × List Exchange :=
  match _h : Bytes.split? 4 input with
  | none => (.ok (), [])
  | some (length, rest) =>
    match _hrest : Bytes.split? length.toNat rest with
    | none => (.error (.failed .truncatedRequest), [])
    | some (body, rest') =>
      match Message.decode schema .request body with
      | .error e => (.error (.failed (.undecodable e)), [])
      | .ok m =>
        match (TestRequest.ofMessage m).run with
        | none => (.error .overflow, [])
        | some outcome =>
          let response := outcome.encode said
          if 0x1_0000_0000 ≤ response.length then
            (.error (.failed (.responseTooLong response.length)), [])
          else
            let (result, exchanges) := serve said rest'
            (result, ⟨outcome, frame response⟩ :: exchanges)
termination_by input.length
decreasing_by
  obtain ⟨rfl, hlen⟩ := Bytes.split?_eq_some _h
  obtain ⟨rfl, _⟩ := Bytes.split?_eq_some _hrest
  simp only [List.length_append]
  omega

end Protobuf.Conformance
