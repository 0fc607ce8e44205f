import Protobuf.Proofs.Conformance.Requests

/-! # Requests are answered in order

Wherever a stream of frames stops, inside a length, inside a request, at a request that is none
or at one that comes to no outcome, the requests that were whole before it have been answered,
each with one frame.

* `Conformance.Leads`: requests in frames in front of other bytes.
* `Conformance.Stops`: bytes at whose front no request can be answered, and how serving ends.
* `Conformance.serve_leads`: serving answers the requests in front and stops behind them.
* `Conformance.serve_answers`: nothing else is written, and every answer can be read.
* `Conformance.serve_boundless`: a request that is not answered.
-/

namespace Protobuf

theorem Bytes.toNat_lt (bytes : Bytes) : bytes.toNat < 256 ^ bytes.length := by
  induction bytes with
  | nil => simp [Bytes.toNat]
  | cons b rest ih =>
    have hb := b.toNat_lt
    rw [Bytes.toNat, List.length_cons, Nat.pow_succ]
    omega

theorem Bytes.ofNat_toNat (bytes : Bytes) : Bytes.ofNat bytes.length bytes.toNat = bytes := by
  induction bytes with
  | nil => rfl
  | cons b rest ih =>
    have hb := b.toNat_lt
    have hlow : (b.toNat + 256 * Bytes.toNat rest) % 256 = b.toNat := by omega
    have hhigh : (b.toNat + 256 * Bytes.toNat rest) / 256 = Bytes.toNat rest := by omega
    rw [Bytes.toNat, List.length_cons, Bytes.ofNat, hlow, hhigh, ih, UInt8.ofNat_toNat]

namespace Conformance

open TestMessage (schema wellFormed_schema)

/-! ## Frames -/

theorem split?_frame {body : Bytes} (fits : Fits body) (rest : Bytes) :
    Bytes.split? 4 (frame body ++ rest) = some (Bytes.ofNat 4 body.length, body ++ rest) ∧
      (Bytes.ofNat 4 body.length).toNat = body.length := by
  constructor
  · have hsplit := Bytes.split?_append (Bytes.ofNat 4 body.length) (body ++ rest)
    rwa [Bytes.length_ofNat, ← List.append_assoc] at hsplit
  · rw [Bytes.toNat_ofNat]
    exact Nat.mod_eq_of_lt fits

/-- A length and as many bytes behind it are a frame. -/
theorem eq_frame_of_split? {input length rest body left : Bytes}
    (hlength : Bytes.split? 4 input = some (length, rest))
    (hbody : Bytes.split? length.toNat rest = some (body, left)) :
    input = frame body ++ left ∧ Fits body := by
  obtain ⟨rfl, hfour⟩ := Bytes.split?_eq_some hlength
  obtain ⟨rfl, hsize⟩ := Bytes.split?_eq_some hbody
  have hbytes := Bytes.ofNat_toNat length
  have hlt := Bytes.toNat_lt length
  rw [hfour] at hbytes hlt
  constructor
  · rw [frame, hsize, hbytes, List.append_assoc]
  · rw [Fits, hsize]
    exact hlt

theorem frame_append_inj {body body' rest rest' : Bytes} (fits : Fits body) (fits' : Fits body')
    (h : frame body ++ rest = frame body' ++ rest') : body = body' ∧ rest = rest' := by
  obtain ⟨hsplit, hlength⟩ := split?_frame fits rest
  obtain ⟨hsplit', hlength'⟩ := split?_frame fits' rest'
  rw [h, hsplit'] at hsplit
  obtain ⟨hcount, happend⟩ := Prod.mk.inj (Option.some.inj hsplit)
  have hsame : body.length = body'.length := by rw [← hlength, ← hlength', hcount]
  exact List.append_inj happend.symm hsame

/-! ## Requests in frames -/

variable {said : String → String}

/-- `body` is a request with an outcome, and the answer fits a frame. -/
structure Asks (said : String → String) (body : Bytes) (outcome : TestOutcome) : Prop where
  asked : ∃ request category printUnknown,
    Message.decode schema .request body =
      .ok (TestRequest.toMessage request category printUnknown) ∧ request.run = some outcome
  answer : Fits (outcome.encode said)

/-- Requests with these outcomes stand at the front of `input`, each in a frame, and what is
    `left` is behind them. -/
inductive Leads (said : String → String) : (input : Bytes) → List TestOutcome → (left : Bytes) → Prop
  | none {left : Bytes} : Leads said left [] left
  | request {body rest left : Bytes} {outcome : TestOutcome} {outcomes : List TestOutcome}
      (fits : Fits body) (asks : Asks said body outcome) (further : Leads said rest outcomes left) :
      Leads said (frame body ++ rest) (outcome :: outcomes) left

inductive Stops (said : String → String) : Bytes → Except ServeFault Unit → Prop
  | ended {left : Bytes} (short : left.length < 4) : Stops said left (.ok ())
  | truncated {left length rest : Bytes} (split : Bytes.split? 4 left = some (length, rest))
      (short : rest.length < length.toNat) : Stops said left (.error (.failed .truncatedRequest))
  | undecodable {body rest : Bytes} {e : DecodeError} (fits : Fits body)
      (failed : Message.decode schema .request body = .error e) :
      Stops said (frame body ++ rest) (.error (.failed (.undecodable e)))
  | overflow {body rest : Bytes} {request : TestRequest} {category : Int32} {printUnknown : Bool}
      (fits : Fits body)
      (decoded : Message.decode schema .request body = .ok (request.toMessage category printUnknown))
      (unanswered : request.run = none) :
      Stops said (frame body ++ rest) (.error .overflow)
  | tooLong {body rest : Bytes} {request : TestRequest} {category : Int32} {printUnknown : Bool}
      {outcome : TestOutcome} (fits : Fits body)
      (decoded : Message.decode schema .request body = .ok (request.toMessage category printUnknown))
      (answered : request.run = some outcome) (long : ¬Fits (outcome.encode said)) :
      Stops said (frame body ++ rest)
        (.error (.failed (.responseTooLong (outcome.encode said).length)))

theorem split?_eq_none {count : Nat} {bytes : Bytes} (h : Bytes.split? count bytes = none) :
    bytes.length < count := by
  unfold Bytes.split? at h
  split at h
  · cases h
  · omega

/-- What is decoded as a request is one. -/
theorem exists_request_of_decode {body : Bytes} {m : Message}
    (h : Message.decode schema .request body = .ok m) :
    ∃ category printUnknown, Message.decode schema .request body =
      .ok ((TestRequest.ofMessage m).toMessage category printUnknown) := by
  obtain ⟨category, printUnknown, hm⟩ :=
    TestRequest.exists_toMessage (Message.hasType_decode wellFormed_schema h)
  exact ⟨category, printUnknown, hm ▸ h⟩

/-- Bytes are decoded as one request. -/
theorem request_unique {body : Bytes} {request request' : TestRequest} {category category' : Int32}
    {printUnknown printUnknown' : Bool}
    (h : Message.decode schema .request body = .ok (request.toMessage category printUnknown))
    (h' : Message.decode schema .request body = .ok (request'.toMessage category' printUnknown')) :
    request = request' := by
  have heq := congrArg TestRequest.ofMessage (Except.ok.inj (h.symm.trans h'))
  rwa [TestRequest.ofMessage_toMessage, TestRequest.ofMessage_toMessage] at heq

theorem Asks.unique {body : Bytes} {outcome outcome' : TestOutcome} (h : Asks said body outcome)
    (h' : Asks said body outcome') : outcome = outcome' := by
  obtain ⟨request, category, printUnknown, decoded, hrun⟩ := h.asked
  obtain ⟨request', category', printUnknown', decoded', hrun'⟩ := h'.asked
  obtain rfl := request_unique decoded decoded'
  exact Option.some.inj (hrun.symm.trans hrun')

/-- Where serving stops no request stands. -/
theorem Stops.not_asks {body rest : Bytes} {result : Except ServeFault Unit} {outcome : TestOutcome}
    (stops : Stops said (frame body ++ rest) result) (fits : Fits body) :
    ¬Asks said body outcome := by
  obtain ⟨hsplit, hlength⟩ := split?_frame fits rest
  generalize hleft : frame body ++ rest = left at stops hsplit
  rintro ⟨⟨request, category, printUnknown, decoded, hrun⟩, answer⟩
  cases stops with
  | ended short =>
    obtain ⟨rfl, hfour⟩ := Bytes.split?_eq_some hsplit
    rw [List.length_append, hfour] at short
    omega
  | truncated split short =>
    rw [hsplit] at split
    obtain ⟨rfl, rfl⟩ := Prod.mk.inj (Option.some.inj split)
    rw [hlength, List.length_append] at short
    omega
  | undecodable fits' failed =>
    obtain ⟨rfl, rfl⟩ := frame_append_inj fits fits' hleft
    rw [failed] at decoded
    cases decoded
  | overflow fits' decoded' unanswered =>
    obtain ⟨rfl, rfl⟩ := frame_append_inj fits fits' hleft
    obtain rfl := request_unique decoded decoded'
    rw [unanswered] at hrun
    cases hrun
  | tooLong fits' decoded' answered long =>
    obtain ⟨rfl, rfl⟩ := frame_append_inj fits fits' hleft
    obtain rfl := request_unique decoded decoded'
    rw [answered] at hrun
    cases hrun
    exact long answer

/-- The requests in front of where serving stops are the most that stand in front. -/
theorem Leads.prefix_of_stops {input left left' : Bytes} {outcomes others : List TestOutcome}
    {result : Except ServeFault Unit} (leads : Leads said input outcomes left)
    (stops : Stops said left result) (h : Leads said input others left') : others <+: outcomes := by
  induction h generalizing outcomes with
  | none => exact List.nil_prefix
  | @request body rest left' outcome others fits asks further ih =>
    generalize hinput : frame body ++ rest = input at leads
    cases leads with
    | none => exact absurd asks ((hinput ▸ stops).not_asks fits)
    | request fits' asks' further' =>
      obtain ⟨rfl, rfl⟩ := frame_append_inj fits fits' hinput
      obtain rfl := asks.unique asks'
      exact (List.prefix_cons_inj _).2 (ih further')

/-! ## Serving -/

def TestOutcome.exchange (said : String → String) (outcome : TestOutcome) : Exchange :=
  ⟨outcome, frame (outcome.encode said)⟩

/-- Serving answers the requests in front, one after the other, and ends as it must where it
    stops. -/
theorem serve_leads (said : String → String) (input : Bytes) :
    ∃ outcomes left result, Leads said input outcomes left ∧ Stops said left result ∧
      serve said input = (result, outcomes.map (TestOutcome.exchange said)) := by
  fun_induction serve said input with
  | case1 input hsplit => exact ⟨[], input, _, .none, .ended (split?_eq_none hsplit), rfl⟩
  | case2 input length rest hsplit hbody =>
    exact ⟨[], input, _, .none, .truncated hsplit (split?_eq_none hbody), rfl⟩
  | case3 input length rest hsplit body left hbody e hdecode =>
    obtain ⟨rfl, fits⟩ := eq_frame_of_split? hsplit hbody
    exact ⟨[], _, _, .none, .undecodable fits hdecode, rfl⟩
  | case4 input length rest hsplit body left hbody m hdecode hrun =>
    obtain ⟨rfl, fits⟩ := eq_frame_of_split? hsplit hbody
    obtain ⟨category, printUnknown, decoded⟩ := exists_request_of_decode hdecode
    exact ⟨[], _, _, .none, .overflow fits decoded hrun, rfl⟩
  | case5 input length rest hsplit body left hbody m hdecode outcome hrun response hlong =>
    obtain ⟨rfl, fits⟩ := eq_frame_of_split? hsplit hbody
    obtain ⟨category, printUnknown, decoded⟩ := exists_request_of_decode hdecode
    exact ⟨[], _, _, .none, .tooLong fits decoded hrun (Nat.not_lt.2 hlong), rfl⟩
  | case6 input length rest hsplit body left hbody m hdecode outcome hrun response hshort result
      exchanges hserve ih =>
    obtain ⟨rfl, fits⟩ := eq_frame_of_split? hsplit hbody
    obtain ⟨outcomes, left', result', leads, stops, hrest⟩ := ih
    obtain ⟨category, printUnknown, decoded⟩ := exists_request_of_decode hdecode
    have asks : Asks said body outcome :=
      ⟨⟨_, category, printUnknown, decoded, hrun⟩, Nat.lt_of_not_le hshort⟩
    rw [hserve] at hrest
    cases hrest
    exact ⟨_, left', _, .request fits asks leads, stops, rfl⟩

/-- A request in front is answered before the others, if it is answered. -/
theorem serve_request {body : Bytes} {request : TestRequest} {category : Int32} {printUnknown : Bool}
    (fits : Fits body)
    (decoded : Message.decode schema .request body = .ok (request.toMessage category printUnknown))
    (rest : Bytes) :
    serve said (frame body ++ rest) =
      match request.run with
      | none => (.error .overflow, [])
      | some outcome =>
        if 0x1_0000_0000 ≤ (outcome.encode said).length then
          (.error (.failed (.responseTooLong (outcome.encode said).length)), [])
        else ((serve said rest).1, outcome.exchange said :: (serve said rest).2) := by
  obtain ⟨hsplit, hlength⟩ := split?_frame fits rest
  have hbody : Bytes.split? (Bytes.ofNat 4 body.length).toNat (body ++ rest) = some (body, rest) := by
    rw [hlength]
    exact Bytes.split?_append body rest
  rw [serve]
  split
  · rename_i hnone
    rw [hsplit] at hnone
    cases hnone
  · rename_i hsome
    rw [hsplit] at hsome
    cases hsome
    split
    · rename_i hnone
      rw [hbody] at hnone
      cases hnone
    · rename_i hsome
      rw [hbody] at hsome
      cases hsome
      simp only [decoded, TestRequest.ofMessage_toMessage]
      rfl

theorem Leads.answers_fit {input left : Bytes} {outcomes : List TestOutcome}
    (leads : Leads said input outcomes left) : ∀ o ∈ outcomes, Fits (o.encode said) := by
  induction leads with
  | none => simp
  | request fits asks further ih => exact List.forall_mem_cons.2 ⟨asks.answer, ih⟩

/-- Of the requests at the front of `input` the most that stand there are answered, each with
    one frame and in their order.  Nothing else is written, however serving ends, and each of the
    answers is read back as a response with its outcome set.  A request has no outcome, and
    serving no end, exactly if it asks for a message in JSON that overflows. -/
theorem serve_answers (said : String → String) (input : Bytes) :
    (∃ outcomes left, Leads said input outcomes left ∧
      (∀ others left', Leads said input others left' → others <+: outcomes) ∧
      (serve said input).2.flatMap (·.frame) = outcomes.flatMap (fun o => frame (o.encode said)) ∧
      (serve said input).2.length = outcomes.length ∧
      Stops said left (serve said input).1 ∧
      ∀ o ∈ outcomes,
        Message.decode schema .response (o.encode said) = .ok [.oneof (some (o.toMember said))]) ∧
    ∀ request : TestRequest, request.run = none ↔
      ∃ r bytes m, testable? request.messageType = some r ∧
        request.payload = some (.protobuf bytes) ∧ Message.decode schema r bytes = .ok m ∧
          request.outputFormat = 2 ∧ Message.toJson schema r m = .error .overflow := by
  refine ⟨?_, TestRequest.run_eq_none_iff⟩
  obtain ⟨outcomes, left, result, leads, stops, hserve⟩ := serve_leads said input
  refine ⟨outcomes, left, leads, fun _ _ => leads.prefix_of_stops stops, ?_, ?_, ?_, ?_⟩
  · rw [hserve, List.flatMap_map]
    rfl
  · rw [hserve, List.length_map]
  · rw [hserve]
    exact stops
  · intro o ho
    exact TestOutcome.decode_encode (leads.answers_fit o ho)

/-! ## A request that is not answered -/

def openAgeless : Message :=
  .only schema .wardrobe 11 (.optional (some (.message (TestMessage.span 0 Int32.minValue))))

def boundless : TestRequest where
  payload := some (.protobuf (Message.encode schema .wardrobe openAgeless))
  outputFormat := 2
  messageType := "quill.test.Wardrobe"

theorem decode_openAgeless :
    Message.decode schema .wardrobe (Message.encode schema .wardrobe openAgeless) =
      .ok openAgeless := by
  have typed : Message.HasType schema .wardrobe openAgeless :=
    Message.hasType_only (t := TestMessage.submessage "open_for" 15 .duration) rfl
      (.present (.message (TestMessage.hasType_span _ _)))
  have hlength : (Message.encode schema .wardrobe openAgeless).length = 13 := by decide +kernel
  have fits : (Message.encode schema .wardrobe openAgeless).Addressable := by
    rw [Bytes.Addressable, hlength]
    decide
  rw [Message.decode_encode_eq wellFormed_schema typed fits, if_pos (by decide +kernel)]

/-- The request has no outcome. -/
theorem run_boundless : boundless.run = none :=
  (TestRequest.run_eq_none_iff boundless).2
    ⟨.wardrobe, _, _, by decide, rfl, decode_openAgeless, rfl, by cbv⟩

/-- Serving ends without an answer to a request that is whole. -/
theorem serve_boundless : ∃ body,
    Message.decode schema .request body = .ok (boundless.toMessage 0 false) ∧
      Fits body ∧ ∀ said, serve said (frame body) = (.error .overflow, []) := by
  have hlength : (Message.encode schema .request (boundless.toMessage 0 false)).length = 38 := by
    rw [Message.length_encode]
    decide +kernel
  have fits : Fits (Message.encode schema .request (boundless.toMessage 0 false)) := by
    rw [Fits, hlength]
    decide
  have decoded : Message.decode schema .request
      (Message.encode schema .request (boundless.toMessage 0 false)) =
        .ok (boundless.toMessage 0 false) := by
    rw [Message.decode_encode_eq wellFormed_schema (TestRequest.hasType_toMessage boundless 0 false)
      (Nat.lt_trans fits (by decide)), if_pos (by decide +kernel)]
  refine ⟨_, decoded, fits, fun said => ?_⟩
  rw [← List.append_nil (frame _), serve_request fits decoded, run_boundless]

end Conformance

end Protobuf
