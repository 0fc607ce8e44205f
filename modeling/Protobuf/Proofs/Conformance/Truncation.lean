import Protobuf.Proofs.Conformance.Serving

/-! # Streams that are cut off

A stream that ends inside a request is told from one that ends behind a frame, but one to
three bytes of a length are not: serving takes them for the end.

* `Conformance.Served`: a request that is answered.
* `Conformance.serve_frame`, `Conformance.serve_frames`: one request, and all in front.
* `Conformance.frames_append_inj`: the frames in front of a part of one.
* `Conformance.serve_ok_iff`: the streams that end well.
-/

namespace Protobuf.Conformance

open TestMessage (schema)

variable {said : String → String}

/-- Some bytes that can stand in a frame, are a request with an outcome and have an answer that
    fits one. -/
def Served (said : String → String) (body : Bytes) : Prop :=
  Fits body ∧ ∃ outcome, Asks said body outcome

def frames (bodies : List Bytes) : Bytes := bodies.flatMap frame

theorem frames_nil_append (rest : Bytes) : frames [] ++ rest = rest := rfl

theorem frames_cons_append (body : Bytes) (bodies : List Bytes) (rest : Bytes) :
    frames (body :: bodies) ++ rest = frame body ++ (frames bodies ++ rest) := by
  rw [frames, List.flatMap_cons, List.append_assoc]
  rfl

def Broken (cut : Bytes) : Prop := ∀ body rest, Fits body → cut ≠ frame body ++ rest

theorem four_le_length_frame (body : Bytes) : 4 ≤ (frame body).length := by
  rw [frame, List.length_append, Bytes.length_ofNat]
  omega

theorem broken_of_short {cut : Bytes} (short : cut.length < 4) : Broken cut := by
  rintro body rest - rfl
  have hfour := four_le_length_frame body
  rw [List.length_append] at short
  omega

/-- What is missing from a frame is missing at its end. -/
theorem broken_of_partial {cut body : Bytes} (fits : Fits body) (h : cut <+: frame body)
    (hne : cut ≠ frame body) : Broken cut := by
  rintro body' rest fits' rfl
  obtain ⟨more, hmore⟩ := h
  have heq : frame body ++ [] = frame body' ++ (rest ++ more) := by
    rw [List.append_nil, ← hmore, List.append_assoc]
  obtain ⟨rfl, hrest⟩ := frame_append_inj fits fits' heq
  obtain ⟨rfl, -⟩ := List.append_eq_nil_iff.1 hrest.symm
  exact hne (List.append_nil _)

/-- Bytes are frames and a part of one in one way only. -/
theorem frames_append_inj {bodies bodies' : List Bytes} {cut cut' : Bytes}
    (fits : ∀ body ∈ bodies, Fits body) (fits' : ∀ body ∈ bodies', Fits body) (broken : Broken cut)
    (broken' : Broken cut') (h : frames bodies ++ cut = frames bodies' ++ cut') :
    bodies = bodies' ∧ cut = cut' := by
  induction bodies generalizing bodies' with
  | nil =>
    cases bodies' with
    | nil => exact ⟨rfl, h⟩
    | cons body' bodies' =>
      rw [frames_nil_append, frames_cons_append] at h
      exact absurd h (broken body' _ (fits' body' List.mem_cons_self))
  | cons body bodies ih =>
    cases bodies' with
    | nil =>
      rw [frames_nil_append, frames_cons_append] at h
      exact absurd h.symm (broken' body _ (fits body List.mem_cons_self))
    | cons body' bodies' =>
      rw [List.forall_mem_cons] at fits fits'
      rw [frames_cons_append, frames_cons_append] at h
      obtain ⟨rfl, hrest⟩ := frame_append_inj fits.1 fits'.1 h
      obtain ⟨rfl, rfl⟩ := ih fits.2 fits'.2 hrest
      exact ⟨rfl, rfl⟩

/-! ## Serving -/

theorem serve_short {left : Bytes} (short : left.length < 4) : serve said left = (.ok (), []) := by
  rw [serve]
  split
  · rfl
  · rename_i hsplit
    obtain ⟨rfl, hfour⟩ := Bytes.split?_eq_some hsplit
    rw [List.length_append] at short
    omega

/-- A request in front is answered before the others. -/
theorem serve_frame {body : Bytes} {outcome : TestOutcome} (fits : Fits body)
    (asks : Asks said body outcome) (rest : Bytes) :
    serve said (frame body ++ rest) =
      ((serve said rest).1, outcome.exchange said :: (serve said rest).2) := by
  obtain ⟨request, category, printUnknown, decoded, hrun⟩ := asks.asked
  rw [serve_request fits decoded, hrun]
  exact if_neg (Nat.not_le.2 asks.answer)

/-- All requests in front are answered, each with one frame. -/
theorem serve_frames {bodies : List Bytes} (served : ∀ body ∈ bodies, Served said body) (rest : Bytes) :
    (serve said (frames bodies ++ rest)).1 = (serve said rest).1 ∧
      (serve said (frames bodies ++ rest)).2.length = bodies.length + (serve said rest).2.length := by
  induction bodies with
  | nil => exact ⟨rfl, (Nat.zero_add _).symm⟩
  | cons body bodies ih =>
    obtain ⟨⟨fits, outcome, asks⟩, served⟩ := List.forall_mem_cons.1 served
    obtain ⟨hresult, hcount⟩ := ih served
    rw [frames_cons_append, serve_frame fits asks]
    refine ⟨hresult, ?_⟩
    rw [List.length_cons, List.length_cons, hcount]
    omega

theorem Leads.exists_bodies {input left : Bytes} {outcomes : List TestOutcome}
    (leads : Leads said input outcomes left) :
    ∃ bodies, bodies.length = outcomes.length ∧ (∀ body ∈ bodies, Served said body) ∧
      input = frames bodies ++ left := by
  induction leads with
  | none => exact ⟨[], rfl, by simp, rfl⟩
  | @request body rest left outcome outcomes fits asks _ ih =>
    obtain ⟨bodies, hlength, served, rfl⟩ := ih
    refine ⟨body :: bodies, by rw [List.length_cons, hlength, List.length_cons],
      List.forall_mem_cons.2 ⟨⟨fits, outcome, asks⟩, served⟩, ?_⟩
    rw [frames_cons_append]

theorem Stops.short {left : Bytes} (stops : Stops said left (.ok ())) : left.length < 4 := by
  cases stops with
  | ended short => exact short

/-- The streams that end well, and how many requests they have. -/
theorem serve_eq_ok_iff (said : String → String) (input : Bytes) (n : Nat) :
    ((serve said input).1 = .ok () ∧ (serve said input).2.length = n) ↔
      ∃ bodies tail, bodies.length = n ∧ (∀ body ∈ bodies, Served said body) ∧ tail.length < 4 ∧
        input = frames bodies ++ tail := by
  constructor
  · rintro ⟨hresult, hcount⟩
    obtain ⟨outcomes, left, result, leads, stops, hserve⟩ := serve_leads said input
    rw [hserve] at hresult hcount
    obtain rfl : result = .ok () := hresult
    obtain ⟨bodies, hlength, served, hinput⟩ := leads.exists_bodies
    rw [List.length_map] at hcount
    exact ⟨bodies, left, hlength.trans hcount, served, stops.short, hinput⟩
  · rintro ⟨bodies, tail, hlength, served, short, rfl⟩
    obtain ⟨hresult, hcount⟩ := serve_frames served tail
    rw [serve_short short] at hresult hcount
    exact ⟨hresult, hcount.trans hlength⟩

/-- Serving ends well after so many requests exactly if so many stand in front, each in a frame
    and with an answer that fits one, and fewer than four bytes are behind them.  Where a
    stream ends inside a frame it ends well exactly if all in front are requests and the cut is
    in the length of the frame, so never if it is in the request. -/
theorem serve_ok_iff (said : String → String) (input : Bytes) :
    (∀ n, ((serve said input).1 = .ok () ∧ (serve said input).2.length = n) ↔
      ∃ bodies tail, bodies.length = n ∧ (∀ body ∈ bodies, Served said body) ∧ tail.length < 4 ∧
        input = frames bodies ++ tail) ∧
      ∀ bodies cut body, (∀ b ∈ bodies, Fits b) → Fits body → cut <+: frame body →
        cut ≠ frame body → input = frames bodies ++ cut →
          ((serve said input).1 = .ok () ↔ (∀ b ∈ bodies, Served said b) ∧ cut.length < 4) := by
  refine ⟨serve_eq_ok_iff said input, ?_⟩
  rintro bodies cut body allFit fits hprefix hne rfl
  constructor
  · intro hresult
    obtain ⟨bodies', tail, -, served, short, heq⟩ := (serve_eq_ok_iff said _ _).1 ⟨hresult, rfl⟩
    obtain ⟨rfl, rfl⟩ := frames_append_inj allFit (fun b hb => (served b hb).1)
      (broken_of_partial fits hprefix hne) (broken_of_short short) heq
    exact ⟨served, short⟩
  · rintro ⟨served, short⟩
    exact ((serve_eq_ok_iff said _ _).2 ⟨bodies, cut, rfl, served, short, rfl⟩).1

/-- One byte of a length is taken for the end of the stream. -/
theorem serve_lone_byte : (∀ said, serve said [10] = (.ok (), [])) ∧
    [10] <+: frame (List.replicate 10 0) ∧ ∀ bodies, [10] ≠ frames bodies := by
  refine ⟨fun _ => serve_short (by decide), by decide, ?_⟩
  intro bodies h
  cases bodies with
  | nil => cases h
  | cons body bodies =>
    have hfour := four_le_length_frame body
    have hlength := congrArg List.length h
    rw [frames, List.flatMap_cons, List.length_append, List.length_singleton] at hlength
    omega

end Protobuf.Conformance
