import Mathlib.Data.List.Lex
import Protobuf.Proofs.Json.Writable
import Protobuf.Proofs.Schema.Depth

/-! # The first refused value

A message is written in JSON unless a moment or a duration in it is refused, and then what
is wrong with the first of them is the answer: first in the order of field numbers, in a
list by index, in a map by key, and so on into each message.

* `Position`, `Path`, `Path.Precedes`: where a message stands in another, and the order of
  paths.
* `Slot.HasAt`, `Message.HoldsAt`: the messages in a message, with their paths.
* `Message.RefusedAt`: what is wrong with the message at a path.
* `IsFirst`: an answer that is the first of all that are given at some path.
* `IsFirst.findSome?`: blocks of paths that are gone through one after the other.
* `Slot.Answers`: what the member of a slot answers is what is first in the slot.
* `Message.isFirst_toJson`: what is wrong with a message that is not written.
-/

namespace Protobuf

variable {Ref : Type} {S : Schema Ref}

/-- Where a value stands in a field: alone, in a list, or under a key of a map. -/
inductive Position
  | alone
  | element (index : Nat)
  | entry (key : MapKey)

def Position.Precedes : Position → Position → Prop
  | .element i, .element j => i < j
  | .entry k, .entry l => k.precedes l
  | _, _ => False

/-- The number of a field and a position in it. -/
structure PathStep where
  number : Nat
  position : Position

def PathStep.Precedes (a b : PathStep) : Prop :=
  a.number < b.number ∨ a.number = b.number ∧ a.position.Precedes b.position

abbrev Path := List PathStep

/-- The order in which messages are written: the first step in which the paths differ
    decides. -/
abbrev Path.Precedes : Path → Path → Prop := List.Lex PathStep.Precedes

instance : Std.Asymm PathStep.Precedes where
  asymm := by
    rintro ⟨n, p⟩ ⟨n', p'⟩ (hlt | ⟨heq, h⟩) (hlt' | ⟨heq', h'⟩)
    · exact Nat.lt_asymm hlt hlt'
    · exact Nat.ne_of_lt hlt heq'.symm
    · exact Nat.ne_of_lt hlt' heq.symm
    · simp only at h h'
      cases p <;> cases p' <;> simp only [Position.Precedes] at h h'
      · exact Nat.lt_asymm h h'
      · have hself := MapKey.precedes_trans h h'
        rw [MapKey.not_precedes_self] at hself
        cases hself

/-- A value that a slot of a type holds, and where. -/
inductive Slot.HasAt : SlotType Ref → Slot → PathStep → FieldType Ref → Value → Prop
  | optional (f : Field (FieldType Ref)) (v : Value) :
      Slot.HasAt (.optional f) (.optional (some v)) ⟨f.number, .alone⟩ f.type v
  | element (f : Field (FieldType Ref)) {vs : List Value} {i : Nat} {v : Value}
      (h : vs[i]? = some v) :
      Slot.HasAt (.repeated f) (.repeated vs) ⟨f.number, .element i⟩ f.type v
  | entry (key : Scalar) (f : Field (FieldType Ref)) {entries : List (MapKey × Value)}
      {e : MapKey × Value} (h : e ∈ entries) :
      Slot.HasAt (.map key f) (.map entries) ⟨f.number, .entry e.1⟩ f.type e.2
  | member (name : String) {members : List (Field (FieldType Ref))} {f : Field (FieldType Ref)}
      (v : Value) (h : f ∈ members) :
      Slot.HasAt (.oneof name members) (.oneof (some (f.number, v))) ⟨f.number, .alone⟩ f.type v

inductive Message.HoldsAt (S : Schema Ref) : Ref → Message → Path → Ref → Message → Prop
  | self (r : Ref) (m : Message) : Message.HoldsAt S r m [] r m
  | part {r q p : Ref} {m part inner : Message} {t : SlotType Ref} {s : Slot} {step : PathStep}
      {path : Path} (mem : (t, s) ∈ (S r).slots.zip m)
      (holds : Slot.HasAt t s step (.message q) (.message part))
      (rest : Message.HoldsAt S q part path p inner) : Message.HoldsAt S r m (step :: path) p inner

theorem Slot.HasAt.holds {t : SlotType Ref} {s : Slot} {step : PathStep} {u : FieldType Ref}
    {v : Value} (h : Slot.HasAt t s step u v) : Slot.Holds t s u v := by
  cases h with
  | optional f v => exact .optional f v
  | element f h => exact .element f (List.mem_of_getElem? h)
  | entry key f h => exact .entry key f h
  | member name v h => exact .member name v h

theorem Slot.HasAt.number_mem {t : SlotType Ref} {s : Slot} {step : PathStep} {u : FieldType Ref}
    {v : Value} (h : Slot.HasAt t s step u v) : step.number ∈ t.numbers := by
  cases h with
  | member name v h => exact List.mem_map_of_mem h
  | optional | element | entry => exact List.mem_singleton_self _

/-- A slot holds one value at a place. -/
theorem Slot.HasAt.unique {t : SlotType Ref} {s : Slot} {step : PathStep} {u u' : FieldType Ref}
    {v v' : Value} (h : Slot.HasAt t s step u v) (distinct : t.numbers.Nodup)
    (typed : Slot.HasType S t s) (h' : Slot.HasAt t s step u' v') : u = u' ∧ v = v' := by
  cases h with
  | optional f v =>
    cases h'
    exact ⟨rfl, rfl⟩
  | element f h =>
    cases h' with
    | element _ h' => exact ⟨rfl, Option.some.inj (h.symm.trans h')⟩
  | @entry key f entries e h =>
    generalize hstep : (⟨f.number, .entry e.1⟩ : PathStep) = step at h'
    cases h' with
    | @entry _ _ _ e' h' =>
      have hkey : e.1 = e'.1 := by simpa using hstep
      cases typed with
      | map sorted _ _ => rw [List.inj_on_of_nodup_map sorted.nodup_keys h h' hkey]; exact ⟨rfl, rfl⟩
  | @member name members f v h =>
    generalize hstep : (⟨f.number, .alone⟩ : PathStep) = step at h'
    generalize hs : Slot.oneof (some (f.number, v)) = s at h'
    cases h' with
    | @member _ _ g w hg =>
      simp only [Slot.oneof.injEq, Option.some.injEq, Prod.mk.injEq] at hs
      rw [List.inj_on_of_nodup_map distinct h hg hs.1]
      exact ⟨rfl, hs.2⟩

theorem Message.HoldsAt.within {r q : Ref} {m inner : Message} {path : Path}
    (h : HoldsAt S r m path q inner) : Within S r m q inner := by
  induction h with
  | self r m => exact .self r m
  | part mem holds _ ih => exact .part mem holds.holds ih

/-! ## What is refused, and where -/

def Message.RefusedAt (S : Schema Ref) (r : Ref) (m : Message) (path : Path) (e : EncodeFault) :
    Prop :=
  ∃ q inner, HoldsAt S r m path q inner ∧ Refuses S q inner e

def Value.RefusedAt (S : Schema Ref) : FieldType Ref → Value → Path → EncodeFault → Prop
  | .message r, .message m => Message.RefusedAt S r m
  | _, _ => fun _ _ => False

def Slot.RefusedAt (S : Schema Ref) (t : SlotType Ref) (s : Slot) (path : Path) (e : EncodeFault) :
    Prop :=
  ∃ step u v rest, Slot.HasAt t s step u v ∧ path = step :: rest ∧ Value.RefusedAt S u v rest e

theorem Message.refusedAt_iff {r : Ref} {m : Message} {path : Path} {e : EncodeFault} :
    RefusedAt S r m path e ↔ (path = [] ∧ Refuses S r m e) ∨
      ∃ t s, (t, s) ∈ (S r).slots.zip m ∧ Slot.RefusedAt S t s path e := by
  constructor
  · rintro ⟨q, inner, holds, refused⟩
    cases holds with
    | self => exact .inl ⟨rfl, refused⟩
    | part mem holds rest =>
      exact .inr ⟨_, _, mem, _, _, _, _, holds, rfl, _, _, rest, refused⟩
  · rintro (⟨rfl, refused⟩ | ⟨t, s, mem, step, u, v, rest, holds, rfl, refused⟩)
    · exact ⟨r, m, .self r m, refused⟩
    · unfold Value.RefusedAt at refused
      split at refused
      · obtain ⟨q, inner, further, refused⟩ := refused
        exact ⟨q, inner, .part mem holds further, refused⟩
      · exact refused.elim

theorem Message.Writable.not_refusedAt {r : Ref} {m : Message} (h : Writable S r m) (path : Path)
    (e : EncodeFault) : ¬RefusedAt S r m path e := by
  rintro ⟨q, inner, holds, refused⟩
  exact h.accepted holds.within e refused

/-! ## First answers -/

section

variable {α : Type} {answer : Option α} {given : Path → α → Prop}

/-- An answer that is given at the first path at which any is given, or no answer where none
    is given. -/
def IsFirst (answer : Option α) (given : Path → α → Prop) : Prop :=
  match answer with
  | none => ∀ path a, ¬given path a
  | some a => ∃ path, given path a ∧ ∀ path' a', given path' a' → path' = path ∨ path.Precedes path'

theorem IsFirst.congr {given' : Path → α → Prop} (h : IsFirst answer given)
    (same : ∀ path a, given path a ↔ given' path a) : IsFirst answer given' := by
  have : given = given' := funext fun path => funext fun a => propext (same path a)
  rwa [← this]

/-- An answer that is given here. -/
theorem isFirst_self : IsFirst answer fun path a => path = [] ∧ answer = some a := by
  cases answer with
  | none =>
    rintro path a ⟨-, h⟩
    cases h
  | some a => exact ⟨[], ⟨rfl, rfl⟩, fun _ _ h => .inl h.1⟩

/-- An answer that is given one step further on. -/
theorem IsFirst.under (h : IsFirst answer given) (step : PathStep) :
    IsFirst answer fun path a => ∃ rest, path = step :: rest ∧ given rest a := by
  cases answer with
  | none =>
    rintro path a ⟨rest, -, hgiven⟩
    exact h rest a hgiven
  | some a =>
    obtain ⟨path, hgiven, hfirst⟩ := h
    refine ⟨step :: path, ⟨path, rfl, hgiven⟩, ?_⟩
    rintro path' a' ⟨rest, rfl, hgiven'⟩
    exact (hfirst rest a' hgiven').imp (congrArg _) .cons

/-- Blocks of paths that follow each other are gone through one after the other, until there
    is an answer in one. -/
theorem IsFirst.findSome? {ι : Type} {items : List ι} {answer : ι → Option α}
    {given : ι → Path → α → Prop} (each : ∀ i ∈ items, IsFirst (answer i) (given i))
    (ascending : items.Pairwise fun i j =>
      ∀ path a path' a', given i path a → given j path' a' → path.Precedes path') :
    IsFirst (items.findSome? answer) fun path a => ∃ i ∈ items, given i path a := by
  induction items with
  | nil =>
    rintro path a ⟨i, hi, -⟩
    cases hi
  | cons i rest ih =>
    obtain ⟨hbefore, hrest⟩ := List.pairwise_cons.1 ascending
    have hfirst := each i List.mem_cons_self
    rw [List.findSome?_cons]
    split
    · rename_i a hanswer
      rw [hanswer] at hfirst
      obtain ⟨path, hgiven, hleast⟩ := hfirst
      refine ⟨path, ⟨i, List.mem_cons_self, hgiven⟩, ?_⟩
      rintro path' a' ⟨j, hj, hgiven'⟩
      rcases List.mem_cons.1 hj with rfl | hj
      · exact hleast path' a' hgiven'
      · exact .inr (hbefore j hj _ _ _ _ hgiven hgiven')
    · rename_i hnone
      rw [hnone] at hfirst
      -- Nothing is given in the first block, so the first answer is one of the rest.
      refine (ih (fun j hj => each j (List.mem_cons_of_mem _ hj)) hrest).congr fun path a => ?_
      constructor
      · rintro ⟨j, hj, hgiven⟩
        exact ⟨j, List.mem_cons_of_mem _ hj, hgiven⟩
      · rintro ⟨j, hj, hgiven⟩
        rcases List.mem_cons.1 hj with rfl | hj
        · exact absurd hgiven (hfirst path a)
        · exact ⟨j, hj, hgiven⟩

/-- Blocks that are one step away each. -/
theorem IsFirst.findSome?_under {ι : Type} {items : List ι} {answer : ι → Option α}
    {given : ι → Path → α → Prop} (step : ι → PathStep)
    (each : ∀ i ∈ items, IsFirst (answer i) (given i))
    (ascending : items.Pairwise fun i j => (step i).Precedes (step j)) :
    IsFirst (items.findSome? answer) fun path a =>
      ∃ i ∈ items, ∃ rest, path = step i :: rest ∧ given i rest a := by
  refine IsFirst.findSome? (fun i hi => (each i hi).under (step i)) (ascending.imp ?_)
  rintro i j hij _ a _ a' ⟨rest, rfl, -⟩ ⟨rest', rfl, -⟩
  exact .rel hij

end

/-! ## Failures -/

def failure? {ε α : Type} : Except ε α → Option ε
  | .error e => some e
  | .ok _ => none

@[simp] theorem failure?_error {ε α : Type} (e : ε) : failure? (.error e : Except ε α) = some e :=
  rfl

@[simp] theorem failure?_ok {ε α : Type} (a : α) : failure? (.ok a : Except ε α) = none := rfl

@[simp] theorem failure?_map {ε α β : Type} (x : Except ε α) (f : α → β) :
    failure? (x.map f) = failure? x := by
  cases x <;> rfl

theorem failure?_eq_some_iff {ε α : Type} {x : Except ε α} {e : ε} :
    failure? x = some e ↔ x = .error e := by
  cases x <;> simp

theorem failure?_gather (members : List (String × Except EncodeFault Json)) (acc : Json.Members) :
    failure? (gather members acc) = members.findSome? fun e => failure? e.2 := by
  induction members generalizing acc with
  | nil => rfl
  | cons e rest ih =>
    obtain ⟨key, said⟩ := e
    cases said with
    | error e => rfl
    | ok v =>
      rw [gather, ih]
      rfl

theorem failure?_elementsJson (u : FieldType Ref) (vs : List Value) :
    failure? (elementsJson S u vs) = vs.findSome? fun v => failure? (v.toJson S u) := by
  induction vs with
  | nil => rfl
  | cons v rest ih =>
    rw [elementsJson, List.findSome?_cons]
    cases v.toJson S u with
    | error e => rfl
    | ok j => simp only [failure?_map, ih, failure?_ok]

theorem failure?_entriesJson (u : FieldType Ref) (entries : List (MapKey × Value))
    (acc : Json.Members) :
    failure? (entriesJson S u entries acc) =
      entries.findSome? fun e => failure? (e.2.toJson S u) := by
  induction entries generalizing acc with
  | nil => rfl
  | cons e rest ih =>
    obtain ⟨key, v⟩ := e
    rw [entriesJson, List.findSome?_cons]
    cases v.toJson S u with
    | error e => rfl
    | ok j => simp only [ih, failure?_ok]

/-! ## One slot -/

/-- The member that a slot emits answers what is first in the slot, and a slot without a member
    holds nothing that is refused. -/
structure Slot.Answers (S : Schema Ref) (t : SlotType Ref) (s : Slot)
    (members : List (Nat × (String × Except EncodeFault Json))) : Prop where
  shown : ∀ path e, Slot.RefusedAt S t s path e → ∃ m, m ∈ members
  declared : ∀ m ∈ members, m.1 ∈ t.numbers
  numbered : ∀ m ∈ members, ∀ path e, Slot.RefusedAt S t s path e →
    ∃ position rest, path = ⟨m.1, position⟩ :: rest
  first : ∀ m ∈ members, IsFirst (failure? m.2.2) (Slot.RefusedAt S t s)

namespace Slot

variable {t : SlotType Ref} {s : Slot}

theorem answers_nil (h : ∀ path e, ¬Slot.RefusedAt S t s path e) : Slot.Answers S t s [] where
  shown path e refused := absurd refused (h path e)
  declared _ hm := by cases hm
  numbered _ hm := by cases hm
  first _ hm := by cases hm

theorem answers_singleton {number : Nat} {name : String} {said : Except EncodeFault Json}
    (mem : number ∈ t.numbers) (first : IsFirst (failure? said) (Slot.RefusedAt S t s))
    (numbered : ∀ {step u v}, Slot.HasAt t s step u v → step.number = number) :
    Slot.Answers S t s [(number, name, said)] where
  shown _ _ _ := ⟨_, List.mem_singleton_self _⟩
  declared m hm := by
    obtain rfl := List.mem_singleton.1 hm
    exact mem
  numbered := by
    rintro m hm _ e ⟨⟨n, position⟩, u, v, rest, holds, rfl, -⟩
    obtain rfl := List.mem_singleton.1 hm
    obtain rfl : n = number := numbered holds
    exact ⟨position, rest, rfl⟩
  first m hm := by
    obtain rfl := List.mem_singleton.1 hm
    exact first

/-- A value that stands alone in its slot. -/
theorem isFirst_alone {step : PathStep} {u : FieldType Ref} {v : Value} (twf : t.Coherent)
    (typed : Slot.HasType S t s) (h : IsFirst (failure? (v.toJson S u)) (v.RefusedAt S u))
    (holds : Slot.HasAt t s step u v)
    (alone : ∀ {step' u' v'}, Slot.HasAt t s step' u' v' → step' = step) :
    IsFirst (failure? (v.toJson S u)) (Slot.RefusedAt S t s) := by
  refine (h.under step).congr fun path e => ?_
  constructor
  · rintro ⟨rest, rfl, refused⟩
    exact ⟨step, u, v, rest, holds, rfl, refused⟩
  · rintro ⟨step', u', v', rest, holds', rfl, refused⟩
    obtain rfl := alone holds'
    obtain ⟨rfl, rfl⟩ := holds.unique twf.distinct typed holds'
    exact ⟨rest, rfl, refused⟩

theorem isFirst_elements {f : Field (FieldType Ref)} {vs : List Value}
    (each : ∀ v ∈ vs, IsFirst (failure? (v.toJson S f.type)) (v.RefusedAt S f.type)) :
    IsFirst (failure? (elementsJson S f.type vs)) (Slot.RefusedAt S (.repeated f) (.repeated vs)) := by
  have hindexed : (vs.zipIdx.findSome? fun x => failure? (x.1.toJson S f.type)) =
      vs.findSome? fun v => failure? (v.toJson S f.type) := by
    conv_rhs => rw [← List.zipIdx_map_fst 0 vs, List.findSome?_map]
    rfl
  have ascending : vs.zipIdx.Pairwise fun x y =>
      PathStep.Precedes ⟨f.number, .element x.2⟩ ⟨f.number, .element y.2⟩ := by
    have hindices : (vs.zipIdx.map (·.2)).Pairwise (· < ·) := by
      rw [List.zipIdx_map_snd]
      exact List.pairwise_lt_range'
    exact (List.pairwise_map.1 hindices).imp fun hlt => .inr ⟨rfl, hlt⟩
  rw [failure?_elementsJson, ← hindexed]
  refine (IsFirst.findSome?_under (fun x => ⟨f.number, .element x.2⟩)
    (fun x hx => each x.1 (List.fst_mem_of_mem_zipIdx hx)) ascending).congr fun path e => ?_
  constructor
  · rintro ⟨⟨v, i⟩, hx, rest, rfl, refused⟩
    exact ⟨_, _, _, rest, .element f (List.mem_zipIdx_iff_getElem?.1 hx), rfl, refused⟩
  · rintro ⟨_, u, v, rest, holds, rfl, refused⟩
    cases holds with
    | element f h => exact ⟨(v, _), List.mem_zipIdx_iff_getElem?.2 h, rest, rfl, refused⟩

theorem isFirst_entries {key : Scalar} {f : Field (FieldType Ref)} {entries : List (MapKey × Value)}
    (sorted : MapEntries.Sorted entries)
    (each : ∀ e ∈ entries, IsFirst (failure? (e.2.toJson S f.type)) (e.2.RefusedAt S f.type)) :
    IsFirst (failure? (entriesJson S f.type entries []))
      (Slot.RefusedAt S (.map key f) (.map entries)) := by
  rw [failure?_entriesJson]
  refine (IsFirst.findSome?_under (fun e => ⟨f.number, .entry e.1⟩) each
    (sorted.imp fun h => .inr ⟨rfl, h⟩)).congr fun path e => ?_
  constructor
  · rintro ⟨entry, hentry, rest, rfl, refused⟩
    exact ⟨_, _, _, rest, .entry key f hentry, rfl, refused⟩
  · rintro ⟨_, u, v, rest, holds, rfl, refused⟩
    cases holds with
    | entry key f h => exact ⟨_, h, rest, rfl, refused⟩

theorem not_refusedAt_of_not_hasAt (h : ∀ {step u v}, ¬Slot.HasAt t s step u v) (path : Path)
    (e : EncodeFault) : ¬Slot.RefusedAt S t s path e := by
  rintro ⟨step, u, v, rest, holds, -⟩
  exact h holds

/-- A member for a value that stands alone in its slot. -/
theorem answers_alone {step : PathStep} {u : FieldType Ref} {v : Value} (twf : t.Coherent)
    (typed : Slot.HasType S t s) (mem : step.number ∈ t.numbers) (name : String)
    (h : IsFirst (failure? (v.toJson S u)) (v.RefusedAt S u)) (holds : Slot.HasAt t s step u v)
    (alone : ∀ {step' u' v'}, Slot.HasAt t s step' u' v' → step' = step) :
    Slot.Answers S t s [(step.number, name, v.toJson S u)] :=
  answers_singleton mem (isFirst_alone twf typed h holds alone) fun holds' => by rw [alone holds']

theorem answers_repeated {f : Field (FieldType Ref)} {vs : List Value}
    (each : ∀ v ∈ vs, IsFirst (failure? (v.toJson S f.type)) (v.RefusedAt S f.type)) :
    Slot.Answers S (.repeated f) (.repeated vs) (Slot.members S (.repeated f) (.repeated vs)) := by
  rw [Slot.members]
  split
  · rename_i hempty
    refine answers_nil (not_refusedAt_of_not_hasAt fun holds => ?_)
    cases holds with
    | element f h => simp_all
  · refine answers_singleton (by simp [SlotType.numbers]) ?_ fun holds => by cases holds; rfl
    rw [failure?_map]
    exact isFirst_elements each

theorem answers_map {key : Scalar} {f : Field (FieldType Ref)} {entries : List (MapKey × Value)}
    (sorted : MapEntries.Sorted entries)
    (each : ∀ e ∈ entries, IsFirst (failure? (e.2.toJson S f.type)) (e.2.RefusedAt S f.type)) :
    Slot.Answers S (.map key f) (.map entries) (Slot.members S (.map key f) (.map entries)) := by
  rw [Slot.members]
  split
  · rename_i hempty
    refine answers_nil (not_refusedAt_of_not_hasAt fun holds => ?_)
    cases holds with
    | entry key f h => simp_all
  · refine answers_singleton (by simp [SlotType.numbers]) ?_ fun holds => by cases holds; rfl
    rw [failure?_map]
    exact isFirst_entries sorted each

/-- What a slot of a type emits answers what is first in it. -/
theorem answers (twf : t.Coherent) (typed : Slot.HasType S t s)
    (each : ∀ {step u v}, Slot.HasAt t s step u v →
      IsFirst (failure? (Value.toJson S u v)) (v.RefusedAt S u)) :
    Slot.Answers S t s (Slot.members S t s) := by
  have htyped := typed
  cases typed with
  | implicit f x =>
    have hnone := not_refusedAt_of_not_hasAt (S := S) (t := .implicit f)
      (s := .implicit f.type.wire x) fun holds => by cases holds
    rw [Slot.members]
    split
    · exact answers_nil hnone
    · exact answers_singleton (by simp [SlotType.numbers]) hnone fun holds => by cases holds
  | absent f => exact answers_nil (not_refusedAt_of_not_hasAt fun holds => by cases holds)
  | @present f v _ =>
    have holds := Slot.HasAt.optional f v
    refine answers_alone twf htyped (by simp [SlotType.numbers]) _ (each holds) holds ?_
    intro step u' w holds'
    cases holds'
    rfl
  | @repeated f vs _ =>
    refine answers_repeated fun v hv => ?_
    obtain ⟨i, hi⟩ := List.mem_iff_getElem?.1 hv
    exact each (.element f hi)
  | @map key f entries sorted _ _ =>
    exact answers_map sorted fun e he => each (.entry key f he)
  | unset name members =>
    exact answers_nil (not_refusedAt_of_not_hasAt fun holds => by cases holds)
  | @member name members f v mem _ =>
    have holds := Slot.HasAt.member name v mem
    rw [Slot.members, find?_of_nodup twf.distinct mem]
    refine answers_alone twf htyped (List.mem_map_of_mem mem) _ (each holds) holds ?_
    intro step u w holds'
    generalize hs : Slot.oneof (some (f.number, v)) = s at holds'
    cases holds' with
    | member _ _ _ =>
      simp only [Slot.oneof.injEq, Option.some.injEq, Prod.mk.injEq] at hs
      rw [hs.1]

theorem HasAt.depth_lt {step : PathStep} {q : Ref} {part : Message}
    (h : Slot.HasAt t s step (.message q) (.message part)) : Message.depth part < s.depth := by
  have hvalue : Message.depth part < (Value.message part).depth := by
    rw [Value.depth_message]
    exact Nat.lt_succ_self _
  generalize FieldType.message q = u at h
  generalize Value.message part = v at h hvalue
  cases h with
  | optional f v => exact hvalue
  | element f h =>
    exact Nat.lt_of_lt_of_le hvalue
      (valuesDepth_le_iff.1 (Nat.le_refl _) v (List.mem_of_getElem? h))
  | entry key f h =>
    have := entriesDepth_le_iff.1 (Nat.le_refl _) _ h
    rw [Slot.depth]
    omega
  | member name v h => exact hvalue

end Slot

/-! ## Messages -/

namespace Message

variable {r : Ref} {m : Message}

/-- No two slots have a field with one number. -/
theorem eq_of_number (wf : (S r).Coherent) (typed : HasType S r m) {t t' : SlotType Ref}
    {s s' : Slot} (mem : (t, s) ∈ (S r).slots.zip m) (mem' : (t', s') ∈ (S r).slots.zip m)
    {number : Nat} (h : number ∈ t.numbers) (h' : number ∈ t'.numbers) : (t, s) = (t', s') := by
  have hlength : (S r).slots.length ≤ m.length := typed.length_eq.le
  have hdisjoint : ((S r).slots.zip m).Pairwise fun a b => a.1.numbers.Disjoint b.1.numbers := by
    have hslots := (List.nodup_flatMap.1 wf.distinct).2
    rw [← List.map_fst_zip hlength, List.pairwise_map] at hslots
    exact hslots
  have : Std.Symm fun a b : SlotType Ref × Slot => a.1.numbers.Disjoint b.1.numbers :=
    ⟨fun _ _ h => h.symm⟩
  by_contra hne
  exact hdisjoint.forall mem mem' hne h h'

theorem exists_of_mem_slotMembers {ts : List (SlotType Ref)} {ss : List Slot}
    {e : Nat × (String × Except EncodeFault Json)} (h : e ∈ slotMembers S ts ss) :
    ∃ t s, (t, s) ∈ ts.zip ss ∧ e ∈ Slot.members S t s := by
  induction ts generalizing ss with
  | nil => simp [slotMembers] at h
  | cons t ts ih =>
    cases ss with
    | nil => simp [slotMembers] at h
    | cons s ss =>
      rw [slotMembers, List.mem_append] at h
      rcases h with h | h
      · exact ⟨t, s, List.mem_cons_self, h⟩
      · obtain ⟨t', s', mem, he⟩ := ih h
        exact ⟨t', s', List.mem_cons_of_mem _ mem, he⟩

/-- The members of an object are gone through in the order of their numbers. -/
theorem isFirst_gather (wf : (S r).Coherent) (typed : HasType S r m)
    (each : ∀ {t s}, (t, s) ∈ (S r).slots.zip m → Slot.Answers S t s (Slot.members S t s)) :
    IsFirst (failure? (gather (byNumber (slotMembers S (S r).slots m)) []))
      fun path e => ∃ t s, (t, s) ∈ (S r).slots.zip m ∧ Slot.RefusedAt S t s path e := by
  have hnumbers : ((slotMembers S (S r).slots m).map (·.1)).Nodup := by
    have hsub := (slotMembers_sublist (forall_presence wf typed)).map (·.1)
    rw [List.map_map] at hsub
    exact hsub.nodup wf.nodup_jsonNumbers
  have hascending := pairwise_byNumber hnumbers
  have hperm := List.mergeSort_perm (slotMembers S (S r).slots m) fun a b => a.1 ≤ b.1
  rw [failure?_gather, byNumber, List.findSome?_map]
  -- What is given in the block of a member is what is refused in fields with its number.
  refine (@IsFirst.findSome? _ _ _ _ (fun member path e => (∃ t s, (t, s) ∈ (S r).slots.zip m ∧
    Slot.RefusedAt S t s path e) ∧ ∃ position rest, path = ⟨member.1, position⟩ :: rest)
    (fun member hmember => ?_) ?_).congr fun path e => ?_
  · obtain ⟨t, s, mem, hin⟩ := exists_of_mem_slotMembers (hperm.mem_iff.1 hmember)
    refine ((each mem).first member hin).congr fun path e => ?_
    constructor
    · intro refused
      exact ⟨⟨t, s, mem, refused⟩, (each mem).numbered member hin path e refused⟩
    · rintro ⟨⟨t', s', mem', refused⟩, position, rest, rfl⟩
      -- The slot that holds this path has the number of the member, so it is the same one.
      obtain ⟨other, hother⟩ := (each mem').shown _ e refused
      obtain ⟨_, _, hpath⟩ := (each mem').numbered other hother _ e refused
      have hdeclared := (each mem').declared other hother
      simp only [List.cons.injEq, PathStep.mk.injEq] at hpath
      rw [← hpath.1.1] at hdeclared
      cases eq_of_number wf typed mem mem' ((each mem).declared member hin) hdeclared
      exact refused
  · refine (List.pairwise_map.1 hascending).imp ?_
    rintro a b hlt _ e _ e' ⟨-, _, _, rfl⟩ ⟨-, _, _, rfl⟩
    exact .rel (.inl hlt)
  · constructor
    · rintro ⟨member, -, h, -⟩
      exact h
    · rintro ⟨t, s, mem, refused⟩
      obtain ⟨member, hmember⟩ := (each mem).shown path e refused
      exact ⟨member, hperm.mem_iff.2 (mem_slotMembers mem hmember), ⟨t, s, mem, refused⟩,
        (each mem).numbered member hmember path e refused⟩

/-- What is wrong with a message that is not written is what is wrong with the first moment or
    duration that is refused, if it is so for each message in it. -/
theorem isFirst_of_parts (wf : S.Coherent) (shaped : S.WellShaped) (typed : HasType S r m)
    (each : ∀ {t s}, (t, s) ∈ (S r).slots.zip m → ∀ {step u v}, Slot.HasAt t s step u v →
      IsFirst (failure? (Value.toJson S u v)) (v.RefusedAt S u)) :
    IsFirst (failure? (toJson S r m)) (RefusedAt S r m) := by
  -- A moment or a duration holds no other message, so that only itself may be refused.
  have alone : (S r).shape ≠ .object → ∀ path e,
      RefusedAt S r m path e ↔ path = [] ∧ Refuses S r m e := by
    intro hshape path e
    rw [refusedAt_iff, or_iff_left]
    rintro ⟨t, s, mem, step, u, v, rest, holds, -⟩
    exact hshape (holds.holds.shape_eq (shaped r) mem)
  rw [toJson]
  cases hshape : (S r).shape with
  | object =>
    rw [shapeJson]
    refine (isFirst_gather (wf r) typed fun {t s} mem => ?_).congr fun path e => ?_
    · exact Slot.answers ((wf r).slot (List.of_mem_zip mem).1) (List.forall₂_zip typed mem) (each mem)
    · rw [refusedAt_iff, or_iff_right]
      rintro ⟨-, refused⟩
      exact refused.shape_ne hshape
  | timestamp =>
    rw [shapeJson, failure?_map]
    refine isFirst_self.congr fun path e => ?_
    rw [alone (by simp [hshape]), failure?_eq_some_iff, mapError_eq_error]
    refine and_congr_right fun _ => ⟨?_, fun h => ?_⟩
    · rintro ⟨cause, h, rfl⟩
      exact .moment hshape h
    · cases h with
      | moment _ h => exact ⟨_, h, rfl⟩
      | duration shape _ => simp [hshape] at shape
  | duration =>
    rw [shapeJson, failure?_map]
    refine isFirst_self.congr fun path e => ?_
    rw [alone (by simp [hshape]), failure?_eq_some_iff]
    refine and_congr_right fun _ => ⟨fun h => .duration hshape h, fun h => ?_⟩
    cases h with
    | moment shape _ => simp [hshape] at shape
    | duration _ h => exact h

theorem isFirst_toJson (wf : S.Coherent) (shaped : S.WellShaped) (typed : HasType S r m) :
    IsFirst (failure? (toJson S r m)) (RefusedAt S r m) := by
  -- The induction is on the depth: what is held is less deep than the message.
  induction hn : depth m using Nat.strong_induction_on generalizing r m with
  | _ n ih =>
    refine isFirst_of_parts wf shaped typed fun {t s} mem {step u v} holds => ?_
    have hvalue := holds.holds.hasType ((wf r).slot (List.of_mem_zip mem).1).distinct
      (List.forall₂_zip typed mem)
    cases hvalue with
    | plain t x => exact fun _ _ h => h
    | @message q part hpart =>
      rw [Value.toJson, ← toJson]
      have hslot := depth_le_iff.1 (Nat.le_refl _) s (List.of_mem_zip mem).2
      exact ih (depth part) (by have := holds.depth_lt; omega) hpart rfl

/-- A path leads to one message. -/
theorem HoldsAt.unique (wf : S.Coherent) {path : Path} {q q' : Ref} {inner inner' : Message}
    (h : HoldsAt S r m path q inner) (typed : HasType S r m) (h' : HoldsAt S r m path q' inner') :
    q = q' ∧ inner = inner' := by
  induction h with
  | self r m =>
    cases h'
    exact ⟨rfl, rfl⟩
  | @part r q p m part inner t s step path mem holds _ ih =>
    cases h' with
    | part mem' holds' rest' =>
      cases eq_of_number (wf r) typed mem mem' holds.number_mem holds'.number_mem
      have hdistinct := ((wf r).slot (List.of_mem_zip mem).1).distinct
      have hslot := List.forall₂_zip typed mem
      obtain ⟨hq, hpart⟩ := holds.unique hdistinct hslot holds'
      cases hq
      cases hpart
      obtain ⟨_, hm, hpart⟩ := (holds.holds.hasType hdistinct hslot).exists_message
      cases hm
      exact ih hpart rest'

theorem Refuses.unique {e e' : EncodeFault} (h : Refuses S r m e) (h' : Refuses S r m e') :
    e = e' := by
  cases h with
  | moment shape h =>
    cases h' with
    | moment _ h' => rw [Except.error.inj (h.symm.trans h')]
    | duration shape' _ => cases shape.symm.trans shape'
  | duration shape h =>
    cases h' with
    | moment shape' _ => cases shape.symm.trans shape'
    | duration _ h' => exact Except.error.inj (h.symm.trans h')

/-- A message is not written exactly if something in it is refused, and the answer is what is
    wrong with the first that is. -/
theorem toJson_eq_error_iff (wf : S.Coherent) (shaped : S.WellShaped) (typed : HasType S r m)
    {e : EncodeFault} : toJson S r m = .error e ↔
      ∃ path, RefusedAt S r m path e ∧
        ∀ path' e', RefusedAt S r m path' e' → path' = path ∨ path.Precedes path' := by
  have hfirst := isFirst_toJson wf shaped typed
  rw [← failure?_eq_some_iff]
  constructor
  · intro h
    rwa [h] at hfirst
  · rintro ⟨path, refused, hleast⟩
    cases hanswer : failure? (toJson S r m) with
    | none =>
      rw [hanswer] at hfirst
      exact absurd refused (hfirst path e)
    | some e₀ =>
      rw [hanswer] at hfirst
      obtain ⟨path₀, refused₀, hleast₀⟩ := hfirst
      -- Of two first paths neither comes before the other, so there is one.
      have hpath : path₀ = path := by
        rcases hleast path₀ e₀ refused₀ with heq | hlt
        · exact heq
        · rcases hleast₀ path e refused with heq | hlt'
          · exact heq.symm
          · exact absurd hlt' (Std.Asymm.asymm _ _ hlt)
      subst hpath
      obtain ⟨q, inner, holds, hrefuses⟩ := refused
      obtain ⟨q₀, inner₀, holds₀, hrefuses₀⟩ := refused₀
      obtain ⟨rfl, rfl⟩ := holds.unique wf typed holds₀
      rw [hrefuses.unique hrefuses₀]

/-- A message is written if and only if nothing in it is refused. -/
theorem exists_toJson_iff (wf : S.Coherent) (shaped : S.WellShaped) (typed : HasType S r m) :
    (∃ j, toJson S r m = .ok j) ↔ ∀ path e, ¬RefusedAt S r m path e := by
  have hfirst := isFirst_toJson wf shaped typed
  cases hjson : toJson S r m with
  | ok j =>
    rw [hjson] at hfirst
    exact iff_of_true ⟨j, rfl⟩ hfirst
  | error e =>
    rw [hjson] at hfirst
    obtain ⟨path, refused, -⟩ := hfirst
    exact iff_of_false (by simp) fun h => h path e refused

/-- What was read from JSON text can be written. -/
theorem exists_toJson_of_ofJsonText (wf : S.Coherent) (shaped : S.WellShaped) {text : String}
    (h : ofJsonText S r text = .ok m) : ∃ j, toJson S r m = .ok j := by
  have writable := writable_ofJsonText wf shaped h
  exact (exists_toJson_iff wf shaped writable.typed).2 writable.not_refusedAt

end Message

end Protobuf
