import Protobuf.Conformance.Runner
import Protobuf.Proofs.Conformance.Json
import Protobuf.Proofs.Json.Refusals

/-! # Requests and responses as messages

A request is a message with two fields more that a run does not look at, and a response is one
with a member set.

* `TestRequest.toMessage`: requests as messages, told apart by what a run looks at.
* `TestRequest.run_eq_none_iff`: the requests that come to no outcome.
* `TestOutcome.decode_encode`: a response is read back.
-/

namespace Protobuf.Conformance

open TestMessage (schema wellFormed_schema coherent_schema wellShaped_schema)

def Fits (bytes : Bytes) : Prop := bytes.length < 2 ^ 32

/-! ## Requests -/

def TestPayload.toMember : TestPayload → Nat × Value
  | .protobuf bytes => (1, .scalar .bytes bytes)
  | .json text => (2, .scalar .string text)
  | .jspb text => (7, .scalar .string text)
  | .textFormat text => (8, .scalar .string text)

def TestRequest.toMessage (request : TestRequest) (category : Int32) (printUnknown : Bool) :
    Message :=
  [.implicit .int32 request.outputFormat, .implicit .string request.messageType,
    .implicit .int32 category, .implicit .bool printUnknown,
    .oneof (request.payload.map TestPayload.toMember)]

@[simp] theorem TestPayload.ofMember?_toMember (payload : Option TestPayload) :
    TestPayload.ofMember? (payload.map TestPayload.toMember) = payload := by
  rcases payload with _ | bytes | text | text | text <;> rfl

theorem TestRequest.ofMessage_toMessage (request : TestRequest) (category : Int32)
    (printUnknown : Bool) :
    TestRequest.ofMessage (request.toMessage category printUnknown) = request := by
  simp [toMessage, ofMessage]

theorem TestRequest.hasType_toMessage (request : TestRequest) (category : Int32)
    (printUnknown : Bool) :
    Message.HasType schema TestMessage.request (request.toMessage category printUnknown) := by
  refine .cons (.implicit _ _) <| .cons (.implicit _ _) <| .cons (.implicit _ _) <|
    .cons (.implicit _ _) <| .cons ?_ .nil
  rcases request.payload with _ | bytes | text | text | text
  · exact .unset _ _
  · exact .member (f := TestMessage.field "protobuf_payload" 1 (TestMessage.scalar .bytes)) (by simp)
      (.plain (.scalar .bytes) bytes)
  · exact .member (f := TestMessage.field "json_payload" 2 (TestMessage.scalar .string)) (by simp)
      (.plain (.scalar .string) text)
  · exact .member (f := TestMessage.field "jspb_payload" 7 (TestMessage.scalar .string)) (by simp)
      (.plain (.scalar .string) text)
  · exact .member (f := TestMessage.field "text_payload" 8 (TestMessage.scalar .string)) (by simp)
      (.plain (.scalar .string) text)

/-- A message of the type of requests is a request. -/
theorem TestRequest.exists_toMessage {m : Message}
    (typed : Message.HasType schema TestMessage.request m) :
    ∃ category printUnknown, m = (TestRequest.ofMessage m).toMessage category printUnknown := by
  obtain _ | ⟨⟨_, format⟩, _ | ⟨⟨_, name⟩, _ | ⟨⟨_, category⟩, _ | ⟨⟨_, unknown⟩, _ | ⟨payload, ⟨⟩⟩⟩⟩⟩⟩ :=
    typed
  refine ⟨category, unknown, ?_⟩
  cases payload with
  | unset => rfl
  | member hf hv =>
    simp only [List.mem_cons, List.not_mem_nil, or_false] at hf
    rcases hf with rfl | rfl | rfl | rfl <;> (obtain ⟨x, rfl⟩ := hv.exists_scalar; rfl)

/-! ## Outcomes -/

theorem nameOf?_wireFormat_eq_json_iff {format : Int32} :
    TestMessage.wireFormat.nameOf? format = some "JSON" ↔ format = 2 := by
  constructor
  · intro h
    obtain ⟨v, hv, hname⟩ := Option.map_eq_some_iff.1 h
    have hmem := List.mem_of_find?_eq_some hv
    have hnumber := List.find?_some hv
    simp only [TestMessage.wireFormat, List.mem_cons, List.not_mem_nil, or_false] at hmem
    rcases hmem with rfl | rfl | rfl | rfl | rfl <;> simp_all
  · rintro rfl
    rfl

/-- Only asking for a message in JSON may come to no outcome. -/
theorem writeAs_eq_none_iff {r : TestMessage} {format : Int32} {m : Message} :
    writeAs r format m = none ↔
      format = 2 ∧ Message.toJson schema r m = .error .overflow := by
  rw [← nameOf?_wireFormat_eq_json_iff]
  unfold writeAs
  split
  · simp_all
  · rename_i hname
    simp only [hname, true_and, Message.toJsonText]
    rcases Message.toJson schema r m with (e | -) | j <;> simp [Except.map]
  all_goals simp_all

theorem testable?_failureSet : testable? (schema TestMessage.failureSet).name = none := by decide

/-- The message that a payload of bytes or of JSON text starts from. -/
theorem TestPayload.read_eq_ok_iff {r : TestMessage} {payload : Option TestPayload} {m : Message} :
    TestPayload.read r payload = .ok m ↔
      (∃ bytes, payload = some (.protobuf bytes) ∧ Message.decode schema r bytes = .ok m) ∨
        ∃ text, payload = some (.json text) ∧ Message.ofJsonText schema r text = .ok m := by
  have hparsed {text : String} {said : Except DecodeError Message} :
      TestPayload.read.parsed r text said = .ok m ↔ said = .ok m := by
    cases said <;> simp [TestPayload.read.parsed]
  rcases payload with _ | bytes | text | text | text <;> simp [TestPayload.read, hparsed]

/-- A request comes to no outcome exactly if it asks for a message in JSON which has, before
    any other moment or duration without a text, a duration that overflows.  Such a message
    can only be one that was decoded. -/
theorem TestRequest.run_eq_none_iff (request : TestRequest) :
    request.run = none ↔ ∃ r bytes m, testable? request.messageType = some r ∧
      request.payload = some (.protobuf bytes) ∧ Message.decode schema r bytes = .ok m ∧
        request.outputFormat = 2 ∧ Message.toJson schema r m = .error .overflow := by
  unfold run
  split_ifs with hset
  · refine iff_of_false (by simp) ?_
    rintro ⟨r, bytes, m, htest, -⟩
    rw [hset, testable?_failureSet] at htest
    cases htest
  · cases htest : testable? request.messageType with
    | none => simp
    | some r =>
      cases hread : TestPayload.read r request.payload with
      | error outcome =>
        refine iff_of_false (by simp [hread]) ?_
        rintro ⟨_, bytes, m, ⟨⟩, hpayload, hdecode, -⟩
        rw [TestPayload.read_eq_ok_iff.2 (.inl ⟨bytes, hpayload, hdecode⟩)] at hread
        cases hread
      | ok m =>
        simp only [hread, writeAs_eq_none_iff]
        constructor
        · rintro ⟨hformat, hjson⟩
          rcases TestPayload.read_eq_ok_iff.1 hread with ⟨bytes, hpayload, hdecode⟩ | ⟨text, -, htext⟩
          · exact ⟨r, bytes, m, rfl, hpayload, hdecode, hformat, hjson⟩
          · obtain ⟨j, hj⟩ := Message.exists_toJson_of_ofJsonText coherent_schema wellShaped_schema htext
            rw [hj] at hjson
            cases hjson
        · rintro ⟨_, bytes, m', ⟨⟩, hpayload, hdecode, hformat, hjson⟩
          rw [TestPayload.read_eq_ok_iff.2 (.inl ⟨bytes, hpayload, hdecode⟩)] at hread
          cases hread
          exact ⟨hformat, hjson⟩

/-! ## Responses -/

def TestOutcome.response (said : String → String) (outcome : TestOutcome) : Message :=
  [.oneof (some (outcome.toMember said))]

/-- A member of the one slot of responses, as a response. -/
theorem hasType_result {members : List (Field (FieldType TestMessage))} {number : Nat} {k : Scalar}
    (v : k.Carrier) (name : String)
    (mem : TestMessage.field name number (TestMessage.scalar k) ∈ members)
    (slots : (schema .response).slots = [.oneof "result" members]) :
    Message.HasType schema .response [.oneof (some (number, .scalar k v))] := by
  have hmember : Slot.HasType schema (.oneof "result" members)
      (.oneof (some (number, .scalar k v))) :=
    .member mem (.plain (.scalar k) v)
  rw [Message.HasType, slots]
  exact .cons hmember .nil

section

variable {said : String → String} {outcome : TestOutcome}

/-- Every outcome has a field in the response. -/
theorem TestOutcome.hasType_response :
    Message.HasType schema TestMessage.response (outcome.response said) := by
  cases outcome with
  | parseError typeName text cause =>
    exact hasType_result (k := .string) _ "parse_error" (by simp) rfl
  | serializeError cause =>
    exact hasType_result (k := .string) _ "serialize_error" (by simp) rfl
  | runtimeError message =>
    exact hasType_result (k := .string) message "runtime_error" (by simp) rfl
  | protobuf bytes => exact hasType_result (k := .bytes) bytes "protobuf_payload" (by simp) rfl
  | json text => exact hasType_result (k := .string) text "json_payload" (by simp) rfl
  | skipped reason => exact hasType_result (k := .string) reason "skipped" (by simp) rfl

theorem TestOutcome.depth_response : Message.depth (outcome.response said) = 0 := by
  cases outcome <;> rfl

/-- An answer that fits a frame can be read. -/
theorem TestOutcome.decode_encode (fits : Fits (outcome.encode said)) :
    Message.decode schema TestMessage.response (outcome.encode said) =
      .ok (outcome.response said) := by
  have haddressable : Bytes.Addressable (outcome.encode said) := Nat.lt_trans fits (by decide)
  have typed : Message.HasType schema TestMessage.response (outcome.response said) :=
    TestOutcome.hasType_response
  have hdecode := Message.decode_encode_eq wellFormed_schema typed haddressable
  rwa [TestOutcome.depth_response, if_pos (Nat.zero_le _)] at hdecode

end

end Protobuf.Conformance
