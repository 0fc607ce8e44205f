import Protobuf.Proofs.Wire.Session

/-! # Where a cursor takes itself to stand

The number and the layout of the current record can be asked for exactly if some move
succeeded and the last one that did met a record.  A move that failed does not count: where
a cursor stood on a record before, it goes on to answer for that record, although its
payload and perhaps more is behind it.

* `Session.lastMove?`, `Session.lastSettled?`: the answer to the last move, and to the last
  that succeeded.
* `Session.settled?_askAll`: what a cursor remembers of the moves it was asked for.
* `Session.accessors_iff`: when the current record is told, and which of the two it
  depends on.
* `Session.accessors_stale`: a record that is told after a move that failed.
-/

namespace Protobuf

/-- What a cursor remembers of its moves: whether the last one that succeeded met a record. -/
def CursorState.settled? : CursorState → Option Bool
  | .notStarted => none
  | .positioned .. => some true
  | .exhausted => some false

namespace Session

/-- The answer to a move. -/
def move? : Request × Except CursorFault Reply → Option (Except CursorFault Reply)
  | (.next, outcome) => some outcome
  | _ => none

def settled? : Request × Except CursorFault Reply → Option Bool
  | (.next, .ok (.moved further)) => some further
  | _ => none

def lastMove? (history : List (Request × Except CursorFault Reply)) :
    Option (Except CursorFault Reply) :=
  (history.filterMap move?).getLast?

def lastSettled? (history : List (Request × Except CursorFault Reply)) : Option Bool :=
  (history.filterMap settled?).getLast?

section

variable {request : Request} {history : List (Request × Except CursorFault Reply)}

theorem settled?_of_ne (h : request ≠ .next) (outcome : Except CursorFault Reply) :
    settled? (request, outcome) = none := by
  unfold settled?
  split
  · rename_i heq
    exact absurd (Prod.mk.inj heq).1 h
  · rfl

/-- The first move is the last one if no other follows. -/
theorem lastMove?_cons_next (outcome : Except CursorFault Reply) :
    lastMove? ((.next, outcome) :: history) = some ((lastMove? history).getD outcome) := by
  rw [lastMove?, List.filterMap_cons_some (f := move?) rfl, List.getLast?_cons, lastMove?]

theorem lastMove?_cons_of_ne (h : request ≠ .next) (outcome : Except CursorFault Reply) :
    lastMove? ((request, outcome) :: history) = lastMove? history := by
  have hmove : move? (request, outcome) = none := by
    unfold move?
    split <;> simp_all
  rw [lastMove?, List.filterMap_cons_none hmove, lastMove?]

theorem lastSettled?_cons (entry : Request × Except CursorFault Reply) :
    lastSettled? (entry :: history) = (lastSettled? history).or (settled? entry) := by
  rw [lastSettled?, lastSettled?, List.filterMap_cons]
  split
  · rename_i hnone
    rw [hnone, Option.or_none]
  · rename_i further hsome
    rw [hsome, List.getLast?_cons]
    cases (history.filterMap settled?).getLast? <;> rfl

end

/-- A move that succeeded is remembered, and nothing else changes what is. -/
theorem settled?_ask (s : Session) (request : Request) :
    (s.ask request).2.cursor.state.settled? =
      (settled? (request, (s.ask request).1)).or s.cursor.state.settled? := by
  by_cases h : request = .next
  · subst h
    have moves := s.cursor.moves_next
    rw [ask]
    generalize s.cursor.next = moved at moves ⊢
    cases moves <;> rfl
  · rw [settled?_of_ne h, Option.none_or]
    have serves := (s.ask_cases request).resolve_left h
    generalize s.ask request = answer at serves ⊢
    cases serves with
    | told | refused => rfl
    | taken unread => rw [unread]; rfl

theorem settled?_askAll (s : Session) (requests : List Request) :
    (s.askAll requests).2.cursor.state.settled? =
      (lastSettled? (s.askAll requests).1).or s.cursor.state.settled? := by
  induction requests generalizing s with
  | nil => rfl
  | cons request rest ih => rw [askAll, ih, settled?_ask, lastSettled?_cons, Option.or_assoc]

theorem ask_next_cases (s : Session) :
    (∃ fault, (s.ask .next).1 = .error fault) ∨
      ∃ further, (s.ask .next).1 = .ok (.moved further) := by
  rw [ask]
  cases s.cursor.next.1 with
  | error e => exact .inl ⟨_, rfl⟩
  | ok further => exact .inr ⟨further, rfl⟩

/-- Where the last move did not fail, it is the last one that succeeded. -/
theorem lastMove?_askAll (s : Session) (requests : List Request)
    (sound : ∀ fault, lastMove? (s.askAll requests).1 ≠ some (.error fault)) :
    lastMove? (s.askAll requests).1 =
      (lastSettled? (s.askAll requests).1).map fun further => .ok (.moved further) := by
  induction requests generalizing s with
  | nil => rfl
  | cons request rest ih =>
    have later := ih (s.ask request).2
    rw [askAll] at sound ⊢
    generalize ((s.ask request).2.askAll rest).1 = history at later sound ⊢
    by_cases h : request = .next
    · subst h
      rw [lastMove?_cons_next] at sound ⊢
      rw [lastSettled?_cons]
      cases hlast : lastMove? history with
      | some outcome =>
        -- A later move decides.
        rw [hlast] at later sound
        obtain ⟨further, hfurther, hmoved⟩ := Option.map_eq_some_iff.1 (later sound).symm
        rw [hfurther, Option.getD_some, Option.some_or, Option.map_some, hmoved]
      | none =>
        -- No move follows, so none that succeeded does.
        rw [hlast] at later sound
        have hnone := Option.map_eq_none_iff.1 (later fun _ h => by cases h).symm
        rw [hnone, Option.getD_none, Option.none_or]
        obtain ⟨fault, hfault⟩ | ⟨further, hfurther⟩ := s.ask_next_cases
        · rw [hfault] at sound
          exact absurd rfl (sound fault)
        · rw [hfurther]
          rfl
    · rw [lastMove?_cons_of_ne h] at sound ⊢
      rw [lastSettled?_cons, settled?_of_ne h, Option.or_none]
      exact later sound

/-! ## When the current record is told -/

/-- The number and the layout are told of the record that the cursor takes itself to stand
    on. -/
theorem accessors_of_settled?_eq_true {s : Session} (h : s.cursor.state.settled? = some true) :
    ∃ key : FieldKey, (s.ask .fieldNumber).1 = .ok (.number key.number) ∧
      (s.ask .wireType).1 = .ok (.layout key.wireType) := by
  obtain ⟨⟨ahead, state, depth⟩, lists⟩ := s
  cases state with
  | notStarted | exhausted => cases h
  | positioned key consumed => exact ⟨key, rfl, rfl⟩

theorem accessors_of_settled?_ne_true {s : Session} (h : s.cursor.state.settled? ≠ some true) :
    (s.ask .fieldNumber).1 = .error (.misuse .notPositioned) ∧
      (s.ask .wireType).1 = .error (.misuse .notPositioned) := by
  obtain ⟨⟨ahead, state, depth⟩, lists⟩ := s
  cases state with
  | notStarted | exhausted => exact ⟨rfl, rfl⟩
  | positioned key consumed => exact absurd rfl h

def before (bytes : Bytes) (depth : Nat) (lists : (k : Scalar) → List k.Carrier) : Session :=
  ⟨{ ahead := bytes, depth := depth }, lists⟩

/-- Whatever was asked of a cursor, it tells the number and the layout of a record exactly if
    of the moves that succeeded the last met one, and calls both a misuse otherwise.  This
    is the last move of all, unless that one failed. -/
theorem accessors_iff (bytes : Bytes) (depth : Nat) (lists : (k : Scalar) → List k.Carrier)
    (requests : List Request) :
    let run := (before bytes depth lists).askAll requests
    ((∃ number, (run.2.ask .fieldNumber).1 = .ok (.number number)) ↔
        lastSettled? run.1 = some true) ∧
      ((∃ w, (run.2.ask .wireType).1 = .ok (.layout w)) ↔ lastSettled? run.1 = some true) ∧
      (lastSettled? run.1 ≠ some true →
        (run.2.ask .fieldNumber).1 = .error (.misuse .notPositioned) ∧
          (run.2.ask .wireType).1 = .error (.misuse .notPositioned)) ∧
      ((∀ fault, lastMove? run.1 ≠ some (.error fault)) →
        (lastSettled? run.1 = some true ↔ lastMove? run.1 = some (.ok (.moved true)))) := by
  intro run
  have standing : run.2.cursor.state.settled? = lastSettled? run.1 :=
    (settled?_askAll _ requests).trans Option.or_none
  rw [← standing]
  refine ⟨⟨?_, ?_⟩, ⟨?_, ?_⟩, accessors_of_settled?_ne_true, fun sound => ?_⟩
  · rintro ⟨number, told⟩
    by_contra h
    cases (accessors_of_settled?_ne_true h).1.symm.trans told
  · intro h
    obtain ⟨key, hnumber, -⟩ := accessors_of_settled?_eq_true h
    exact ⟨_, hnumber⟩
  · rintro ⟨w, told⟩
    by_contra h
    cases (accessors_of_settled?_ne_true h).2.symm.trans told
  · intro h
    obtain ⟨key, -, hlayout⟩ := accessors_of_settled?_eq_true h
    exact ⟨_, hlayout⟩
  · rw [standing, lastMove?_askAll _ requests sound]
    cases lastSettled? run.1 <;> simp

/-- The payload of the first record is cut off, and the move past it fails. -/
theorem accessors_stale :
    let run := (before [8] 0 fun _ => []).askAll [.next, .next]
    lastMove? run.1 = some (.error (.malformed .unexpectedEnd)) ∧
      (run.2.ask .fieldNumber).1 = .ok (.number 1) ∧
      (run.2.ask .wireType).1 = .ok (.layout .varint) :=
  ⟨rfl, rfl, rfl⟩

end Session

end Protobuf
