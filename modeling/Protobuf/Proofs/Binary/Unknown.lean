import Protobuf.Proofs.Binary.Concatenation
import Protobuf.Proofs.Wire.Form

/-! # Unknown fields

Bytes that a newer writer has more records in are read like those without them.  The
records may stand between any two others, in the message or in any payload that is read
as a message or a map entry.  The lengths in front of such payloads grow with them.

* `Content`: what the bytes of a payload are read as, and what is inside of it.
* `Extended`: bytes with a record more, for a field that is not declared where it stands.
* `Content.Admits`: payloads that are read like others.
* `Extended.forEach`: bytes with a record more are read like those without it.
-/

namespace Protobuf

variable {Ref : Type}

inductive Content (Ref : Type)
  | message (r : Ref)
  | entry (key : Scalar) (value : FieldType Ref)

def FieldType.content? : FieldType Ref → Option (Content Ref)
  | .plain _ => none
  | .message r => some (.message r)

/-- What the payload of a record for a number of the slot is read as, if it holds records
    of its own. -/
def SlotType.content? (number : Nat) : SlotType Ref → Option (Content Ref)
  | .implicit _ => none
  | .optional f | .repeated f => f.type.content?
  | .map key f => some (.entry key f.type)
  | .oneof _ members => (members.find? (·.number = number)).bind (·.type.content?)

namespace Content

def numbers (S : Schema Ref) : Content Ref → List Nat
  | .message r => (S r).slots.flatMap SlotType.numbers
  | .entry _ _ => [1, 2]

def inside? (S : Schema Ref) (number : Nat) : Content Ref → Option (Content Ref)
  | .message r => ((S r).slots.find? (number ∈ ·.numbers)).bind (·.content? number)
  | .entry _ value => if number = 2 then value.content? else none

end Content

/-- The second bytes are the first with a record more, which is for a field that is not
    declared where it stands. -/
inductive Extended (S : Schema Ref) : Content Ref → Bytes → Bytes → Prop
  /-- Between the records of the content itself. -/
  | here {c : Content Ref} {front bytes : Bytes} (rest : Bytes) {r : Record}
    (boundary : Record.Series front) (formed : Record.Formed bytes r)
    (unknown : r.number ∉ c.numbers S) :
    Extended S c (front ++ rest) (front ++ (bytes ++ rest))
  /-- In the payload of one of its records. -/
  | inside {c c' : Content Ref} {front bytes bytes' payload payload' : Bytes} (rest : Bytes)
    {number : Nat} (boundary : Record.Series front) (descends : c.inside? S number = some c')
    (formed : Record.Formed bytes (.delimited number payload))
    (formed' : Record.Formed bytes' (.delimited number payload'))
    (extended : Extended S c' payload payload') :
    Extended S c (front ++ (bytes ++ rest)) (front ++ (bytes' ++ rest))

/-! ## Reading content -/

namespace Content

def State : Content Ref → Type
  | .message _ => Message
  | .entry key _ => key.Carrier × Value

def step (S : Schema Ref) (nested : Nested Ref) :
    (c : Content Ref) → Record → c.State → Except DecodeError Unit × c.State
  | .message r => fun rec m => mergeRecord S nested rec (S r).slots m
  | .entry key t => entryStep S nested key t

/-- Whatever can be read of the first payload is read of the second, too. -/
def Admits (nested : Nested Ref) (payload payload' : Bytes) : Content Ref → Prop
  | .message r => ∀ m m', nested.merge r payload m = (.ok (), m') →
      nested.merge r payload' m = (.ok (), m')
  | .entry key t => ∀ e, nested.entry key t payload = .ok e → nested.entry key t payload' = .ok e

end Content

variable {S : Schema Ref} {nested : Nested Ref}

theorem mergeRecord_of_unknown {rec : Record} (complete : rec.Complete) {ts : List (SlotType Ref)}
    (unknown : rec.number ∉ ts.flatMap SlotType.numbers) (ss : Message) :
    mergeRecord S nested rec ts ss = (.ok (), ss) := by
  obtain ⟨p, hp⟩ := complete
  have hskip : rec.skip = .ok () := by rw [Record.skip, hp]
  induction ts generalizing ss with
  | nil => simp only [mergeRecord, hskip]
  | cons t ts ih =>
    rw [List.flatMap_cons, List.mem_append, not_or] at unknown
    cases ss with
    | nil => simp only [mergeRecord, hskip]
    | cons s ss => rw [mergeRecord, if_neg unknown.1, ih unknown.2]

theorem Content.step_of_unknown {c : Content Ref} {rec : Record} (complete : rec.Complete)
    (unknown : rec.number ∉ c.numbers S) (s : c.State) : c.step S nested rec s = (.ok (), s) := by
  cases c with
  | message r => exact mergeRecord_of_unknown complete unknown s
  | entry key t =>
    obtain ⟨p, hp⟩ := complete
    simp only [numbers, List.mem_cons, List.not_mem_nil, or_false, not_or] at unknown
    simp only [step, entryStep, if_neg unknown.1, if_neg unknown.2, Record.skip, hp]
    rfl

/-! ## Payloads that are read alike -/

@[simp] theorem Record.content_delimited (number : Nat) (payload : Bytes) :
    (Record.delimited number payload).content .delimited = .ok payload :=
  Record.content_self number .delimited (.ok payload)

section

variable {number : Nat} {payload payload' : Bytes}

theorem FieldType.eq_message_of_content? {t : FieldType Ref} {c : Content Ref}
    (h : t.content? = some c) : ∃ r, t = .message r ∧ c = .message r := by
  cases t with
  | plain t => cases h
  | message r =>
    cases h
    exact ⟨r, rfl, rfl⟩

theorem Nested.mergeRecord_of_admits {r : Ref} (h : Content.Admits nested payload payload' (.message r))
    {m m' : Message} (hread : nested.mergeRecord (.delimited number payload) r m = (.ok (), m')) :
    nested.mergeRecord (.delimited number payload') r m = (.ok (), m') := by
  simp only [Nested.mergeRecord, Record.content_delimited] at hread ⊢
  exact h _ _ hread

theorem Nested.fresh_of_admits {r : Ref} (h : Content.Admits nested payload payload' (.message r))
    {v : Value} (hread : nested.fresh S (.delimited number payload) (.message r) = .ok v) :
    nested.fresh S (.delimited number payload') (.message r) = .ok v := by
  rw [fresh] at hread ⊢
  split at hread
  · rename_i m hm
    rw [Nested.mergeRecord_of_admits h hm]
    exact hread
  · cases hread

theorem Nested.onto_of_admits {r : Ref} (h : Content.Admits nested payload payload' (.message r))
    {old : Value}
    (hok : (nested.onto S (.delimited number payload) old (.message r)).1 = .ok ()) :
    nested.onto S (.delimited number payload') old (.message r) =
      nested.onto S (.delimited number payload) old (.message r) := by
  have hmerge : nested.mergeRecord (.delimited number payload') r (old.messageOr (S r).default) =
      (.ok (), _) := Nested.mergeRecord_of_admits h (Prod.ext hok rfl)
  rw [onto, onto, hmerge]
  exact Prod.ext hok.symm rfl

theorem Slot.replace_of_admits {f : Field (FieldType Ref)} {r : Ref} (ht : f.type = .message r)
    (h : Content.Admits nested payload payload' (.message r)) {old : Option (Nat × Value)} {s : Slot}
    (hread : mergeRecord.replace S nested (.delimited number payload) f old = (.ok (), s)) :
    mergeRecord.replace S nested (.delimited number payload') f old = (.ok (), s) := by
  rw [mergeRecord.replace, ht] at hread ⊢
  split at hread
  · rename_i v hv
    rw [Nested.fresh_of_admits h hv]
    exact hread
  · cases hread

theorem Slot.mergeRecord_of_admits {t : SlotType Ref} {c : Content Ref}
    (descends : t.content? number = some c) (h : c.Admits nested payload payload') {s s' : Slot}
    (hread : mergeRecord S nested (.delimited number payload) t s = (.ok (), s')) :
    mergeRecord S nested (.delimited number payload') t s = (.ok (), s') := by
  -- The record is for a field whose type is a message, or for a map.
  cases t with
  | implicit f => cases descends
  | optional f =>
    obtain ⟨r, ht, rfl⟩ := FieldType.eq_message_of_content? descends
    cases s with
    | optional old =>
      cases old <;> simp only [mergeRecord, ht] at hread ⊢ <;>
        rwa [Nested.onto_of_admits h (Prod.mk.inj hread).1]
    | _ => exact hread
  | repeated f =>
    obtain ⟨r, ht, rfl⟩ := FieldType.eq_message_of_content? descends
    cases s with
    | repeated vs =>
      simp only [mergeRecord, ht] at hread ⊢
      split at hread
      · rename_i v hv
        rw [Nested.fresh_of_admits h hv]
        exact hread
      · cases hread
    | _ => exact hread
  | map key f =>
    cases descends
    cases s with
    | map entries =>
      simp only [mergeRecord, Record.content_delimited] at hread ⊢
      split at hread
      · rename_i k v hentry
        rw [h _ hentry]
        exact hread
      · cases hread
    | _ => exact hread
  | oneof name members =>
    obtain ⟨f, hf, hcontent⟩ := Option.bind_eq_some_iff.mp descends
    obtain ⟨r, ht, rfl⟩ := FieldType.eq_message_of_content? hcontent
    cases s with
    | oneof member =>
      have hmember : ∀ bytes, members.find? (·.number = (Record.delimited number bytes).number) =
        some f := fun _ => hf
      simp only [mergeRecord, hmember] at hread ⊢
      cases member with
      | none => exact Slot.replace_of_admits ht h hread
      | some old =>
        by_cases hset : old.1 = number
        · -- The member is the one that is set.
          simp only [if_pos (show old.1 = (Record.delimited number _).number from hset), ht]
            at hread ⊢
          rwa [Nested.onto_of_admits h (Prod.mk.inj hread).1]
        · simp only [if_neg (show ¬old.1 = (Record.delimited number _).number from hset)]
            at hread ⊢
          exact Slot.replace_of_admits ht h hread
    | _ => exact hread

theorem mergeRecord_of_admits {ts : List (SlotType Ref)} {t : SlotType Ref} {c : Content Ref}
    (claims : ts.find? (number ∈ ·.numbers) = some t) (descends : t.content? number = some c)
    (h : c.Admits nested payload payload') {ss ss' : Message}
    (hread : mergeRecord S nested (.delimited number payload) ts ss = (.ok (), ss')) :
    mergeRecord S nested (.delimited number payload') ts ss = (.ok (), ss') := by
  induction ts generalizing ss ss' with
  | nil => cases claims
  | cons first ts ih =>
    cases ss with
    | nil => exact hread
    | cons s ss =>
      rw [mergeRecord] at hread ⊢
      by_cases hclaim : number ∈ first.numbers
      · -- The first slot is the one that the record is for.
        rw [List.find?_cons_of_pos (by simpa using hclaim)] at claims
        cases claims
        rw [if_pos (show (Record.delimited number _).number ∈ t.numbers from hclaim)] at hread ⊢
        rcases hslot : Slot.mergeRecord S nested (.delimited number payload) t s with ⟨outcome, s₁⟩
        rw [hslot] at hread
        cases hread
        rw [Slot.mergeRecord_of_admits descends h hslot]
      · rw [List.find?_cons_of_neg (by simpa using hclaim)] at claims
        rw [if_neg (show (Record.delimited number _).number ∉ first.numbers from hclaim)]
          at hread ⊢
        rcases hothers : mergeRecord S nested (.delimited number payload) ts ss with ⟨outcome, ss₁⟩
        rw [hothers] at hread
        cases hread
        rw [ih claims hothers]

theorem Content.step_of_admits {c c' : Content Ref} (descends : c.inside? S number = some c')
    (h : c'.Admits nested payload payload') {s s' : c.State}
    (hread : c.step S nested (.delimited number payload) s = (.ok (), s')) :
    c.step S nested (.delimited number payload') s = (.ok (), s') := by
  cases c with
  | message r =>
    obtain ⟨t, claims, hcontent⟩ := Option.bind_eq_some_iff.mp descends
    exact mergeRecord_of_admits claims hcontent h hread
  | entry key t =>
    rw [inside?] at descends
    split at descends
    · rename_i hnumber
      subst hnumber
      obtain ⟨r, rfl, rfl⟩ := FieldType.eq_message_of_content? descends
      have hstep : ∀ bytes, entryStep S nested key (.message r) (.delimited 2 bytes) s =
          ((nested.onto S (.delimited 2 bytes) s.2 (.message r)).1,
            (s.1, (nested.onto S (.delimited 2 bytes) s.2 (.message r)).2)) := fun _ => rfl
      simp only [step, hstep] at hread ⊢
      rwa [Nested.onto_of_admits h (Prod.mk.inj hread).1]
    · cases descends

end

/-! ## Bytes that are read alike -/

namespace Record

variable {σ : Type} {step : Record → σ → Except DecodeError Unit × σ}

/-- What is read alike behind a record is read alike with the record in front. -/
theorem forEach_append_of_imp {bytes bytes' rest rest' : Bytes} {r r' : Record}
    (h : Spelled bytes r) (h' : Spelled bytes' r')
    (one : ∀ s s', step r s = (.ok (), s') → step r' s = (.ok (), s'))
    {s s' : σ} (others : ∀ s, forEach step rest s = (.ok (), s') → forEach step rest' s = (.ok (), s'))
    (hread : forEach step (bytes ++ rest) s = (.ok (), s')) :
    forEach step (bytes' ++ rest') s = (.ok (), s') := by
  rw [forEach_append h] at hread
  rw [forEach_append h']
  split at hread
  · cases hread
  · rename_i s₁ hone
    rw [one _ _ hone]
    exact others _ hread

theorem Series.forEach_append_of_imp {front rest rest' : Bytes} (h : Series front) {s s' : σ}
    (others : ∀ s, forEach step rest s = (.ok (), s') → forEach step rest' s = (.ok (), s'))
    (hread : forEach step (front ++ rest) s = (.ok (), s')) :
    forEach step (front ++ rest') s = (.ok (), s') := by
  induction h generalizing s with
  | nil => exact others _ hread
  | cons formed further ih =>
    rw [List.append_assoc] at hread ⊢
    exact Record.forEach_append_of_imp formed.spelled formed.spelled (fun _ _ h => h)
      (fun _ => ih) hread

end Record

namespace Content

/-- Payloads whose records are read alike are admitted alike, whatever nesting is left. -/
theorem admits_of_forEach {c : Content Ref} {payload payload' : Bytes}
    (h : ∀ levels (s s' : c.State),
      Record.forEach (c.step S (nestedWithin S levels)) payload s = (.ok (), s') →
      Record.forEach (c.step S (nestedWithin S levels)) payload' s = (.ok (), s'))
    (levels : Nat) : c.Admits (nestedWithin S levels) payload payload' := by
  cases levels with
  | zero =>
    -- No nesting is left, so the one payload is not read either.
    cases c with
    | message r =>
      intro m m' hread
      cases hread
    | entry key t =>
      intro e hread
      cases hread
  | succ levels =>
    cases c with
    | message r =>
      intro m m' hread
      exact h levels m m' hread
    | entry key t =>
      intro e hread
      rw [nestedWithin_succ_entry] at hread ⊢
      split at hread
      · rename_i k v hall
        have hall' : Record.forEach (entryStep S (nestedWithin S levels) key t) payload'
            (key.default, t.default S) = (.ok (), (k, v)) := h levels _ _ hall
        rw [hall']
        exact hread
      · cases hread

end Content

/-- Bytes with a record more are read like those without it. -/
theorem Extended.forEach {c : Content Ref} {bytes bytes' : Bytes} (h : Extended S c bytes bytes')
    (levels : Nat) {s s' : c.State}
    (hread : Record.forEach (c.step S (nestedWithin S levels)) bytes s = (.ok (), s')) :
    Record.forEach (c.step S (nestedWithin S levels)) bytes' s = (.ok (), s') := by
  induction h generalizing levels with
  | here _ boundary formed unknown =>
    refine boundary.forEach_append_of_imp (fun s hrest => ?_) hread
    rw [Record.forEach_append formed.spelled, Content.step_of_unknown formed.complete unknown]
    exact hrest
  | inside _ boundary descends formed formed' _ ih =>
    have admits := Content.admits_of_forEach (fun levels _ _ => ih levels) levels
    refine boundary.forEach_append_of_imp (fun s hrest => ?_) hread
    exact Record.forEach_append_of_imp formed.spelled formed'.spelled
      (fun _ _ => Content.step_of_admits descends admits) (fun _ h => h) hrest

theorem Extended.mergeBytes {r : Ref} {bytes bytes' : Bytes}
    (h : Extended S (.message r) bytes bytes') {m m' : Message}
    (hread : Message.mergeBytes S r bytes m = (.ok (), m')) :
    Message.mergeBytes S r bytes' m = (.ok (), m') :=
  h.forEach nestingLimit (s := m) hread

end Protobuf
