import Protobuf.Proofs.Binary.Preservation
import Protobuf.Proofs.Binary.Spelling

/-! # Merging a written message

Merging the bytes of a message into another gives the one laid over the other, as long
as the message is no deeper than the readers that are left; else it fails for being
nested too deeply.

* `Reads`: what a reading with so many readers left comes to.
* `Nested.Faithful`: readers of nested payloads that give back what was written.
* `Slot.applyAll_emissions`: the records of a slot, one after the other.
-/

namespace Protobuf

variable {Ref : Type} {S : Schema Ref} {nested : Nested Ref} {levels : Nat}

/-- With `levels` readers left, a reading of what takes `depth` of them gives `expected`, or
    fails for being nested too deeply. -/
structure Reads {α : Type} (levels depth : Nat) (result : Except DecodeError Unit × α)
    (expected : α) : Prop where
  ok : depth ≤ levels → result = (.ok (), expected)
  limit : levels < depth → result.1 = .error (.nestingLimit nestingLimit)

theorem Reads.of_ok {α : Type} {result : Except DecodeError Unit × α} {expected : α}
    (h : result = (.ok (), expected)) : Reads levels 0 result expected :=
  ⟨fun _ => h, fun hlt => absurd hlt (Nat.not_lt_zero _)⟩

theorem Reads.map {α β : Type} {depth : Nat} {result : Except DecodeError Unit × α} {expected : α}
    (h : Reads levels depth result expected) (f : α → β) :
    Reads levels depth (result.1, f result.2) (f expected) where
  ok hle := by rw [h.ok hle]
  limit hlt := h.limit hlt

/-- Readers of nested payloads that give back what was written, as far as they go. -/
structure Nested.Faithful (S : Schema Ref) (nested : Nested Ref) (levels : Nat) : Prop where
  merge : ∀ {r old m}, Message.HasType S r old → Message.HasType S r m →
    (Message.encode S r m).Addressable →
    Reads levels (Message.depth m + 1) (nested.merge r (Message.encode S r m) old)
      (Message.overlay S r old m)
  entry : ∀ {key t} {e : MapKey × Value}, key.isKey → e.1.HasKind key → Value.HasType S t e.2 →
    (entryBytes S key t e).Addressable →
    nested.entry key t (entryBytes S key t e) =
      if e.2.depth + 1 ≤ levels then .ok e else .error (.nestingLimit nestingLimit)

/-! ## Values -/

theorem Value.addressable_encode {r : Ref} {number : Nat} {m : Message}
    (fits : ((Value.message m).emission S (.message r) number).bytes.Addressable) :
    (Message.encode S r m).Addressable := by
  rw [Value.emission, Value.payload_message] at fits
  exact fits.of_length_le
    (Nat.le_trans (length_le_delimit _) (Record.length_payload_le_keyed _ _ _))

theorem Nested.Faithful.reads_onto (h : nested.Faithful S levels) {t : FieldType Ref} {number : Nat}
    {old v : Value} (hold : Value.HasType S t old) (hv : Value.HasType S t v)
    (fits : (v.emission S t number).bytes.Addressable) :
    Reads levels v.depth (nested.onto S (v.record S t number) old t) (Value.overlay S t old v) := by
  cases hv with
  | plain t x =>
    refine .of_ok ?_
    simp only [Nested.onto, Value.record, Record.scalar_toPayload, Value.overlay]
  | @message r slots hslots =>
    obtain ⟨m, rfl, hm⟩ := hold.exists_message
    have hmerge := (h.merge hm hslots (Value.addressable_encode fits)).map Value.message
    rw [Value.depth, Nested.onto, Value.overlay]
    simpa only [Value.record, Nested.mergeRecord, Record.content_self, Message.overlay,
      Message.depth, Value.messageOr] using hmerge

theorem Nested.Faithful.fresh_record (h : nested.Faithful S levels) {t : FieldType Ref} {number : Nat}
    {v : Value} (hv : Value.HasType S t v) (fits : (v.emission S t number).bytes.Addressable) :
    nested.fresh S (v.record S t number) t =
      if v.depth ≤ levels then .ok v else .error (.nestingLimit nestingLimit) := by
  cases hv with
  | plain t x => simp [Nested.fresh, Value.record, Except.map, Value.depth]
  | @message r slots hslots =>
    have hmerge := h.merge (Message.hasType_default S r) hslots (Value.addressable_encode fits)
    -- A value that is read anew is laid over nothing.
    rw [Message.overlay_default hslots] at hmerge
    rw [Value.depth_message]
    simp only [Nested.fresh, Value.record, Nested.mergeRecord, Record.content_self]
    by_cases hle : Message.depth slots + 1 ≤ levels
    · rw [hmerge.ok hle, if_pos hle]
    · have hlimit := hmerge.limit (by omega)
      rw [if_neg hle]
      split
      · rename_i hread
        rw [hread] at hlimit
        cases hlimit
      · rename_i hread
        rw [hread] at hlimit
        cases hlimit
        rfl

/-! ## Slots -/

theorem Slot.reads_optional (h : nested.Faithful S levels) {f : Field (FieldType Ref)}
    {old : Option Value} {v : Value} (hold : Slot.HasType S (.optional f) (.optional old))
    (hv : Value.HasType S f.type v) (fits : (v.emission S f.type f.number).bytes.Addressable) :
    Reads levels v.depth
      (Slot.mergeRecord S nested (v.record S f.type f.number) (.optional f) (.optional old))
      (Slot.overlay S (.optional f) (.optional old) (.optional (some v))) := by
  rw [Slot.overlay]
  cases hold with
  | present hw =>
    rw [Slot.mergeRecord, Option.getD_some]
    exact (h.reads_onto hw hv fits).map fun v => Slot.optional (some v)
  | absent =>
    rw [Slot.mergeRecord, Option.getD_none]
    -- A value that was not there is merged into the default, which for a plain one is
    -- replaced and for a message is what it is laid over.
    have hreads := (h.reads_onto (Value.hasType_default S f.type) hv fits).map
      fun v => Slot.optional (some v)
    generalize f.type = t at hv fits hreads ⊢
    cases t with
    | plain t =>
      obtain ⟨x, rfl⟩ := hv.exists_scalar
      simpa [Value.record, Nested.onto] using hreads
    | message r => exact hreads

theorem Slot.reads_element (h : nested.Faithful S levels) {f : Field (FieldType Ref)}
    (hpacked : f.type.isPacked = false) (vs : List Value) {v : Value}
    (hv : Value.HasType S f.type v) (fits : (v.emission S f.type f.number).bytes.Addressable) :
    Reads levels v.depth
      (Slot.mergeRecord S nested (v.record S f.type f.number) (.repeated f) (.repeated vs))
      (.repeated (vs ++ [v])) := by
  rw [Slot.mergeRecord]
  generalize f.type = t at hv fits hpacked ⊢
  cases t with
  | plain t =>
    obtain ⟨x, rfl⟩ := hv.exists_scalar
    refine .of_ok ?_
    have hkind : t.wire.isPackable = false := hpacked
    simp [Value.record, Record.scalars, hkind]
  | message r =>
    simp only [h.fresh_record hv fits]
    constructor
    · intro hle
      rw [if_pos hle]
    · intro hlt
      rw [if_neg (by omega)]

theorem Slot.mergeRecord_packed {f : Field (FieldType Ref)} (hpacked : f.type.isPacked = true)
    {old vs : List Value} (hvs : ∀ v ∈ vs, Value.HasType S f.type v)
    (fits : (packedPayload vs).Addressable) :
    Slot.mergeRecord S nested (packedEmission f.number vs).record (.repeated f) (.repeated old) =
      (.ok (), .repeated (old ++ vs)) := by
  rw [Slot.mergeRecord]
  generalize f.type = t at hpacked hvs ⊢
  cases t with
  | plain t =>
    obtain ⟨xs, rfl⟩ := exists_scalars hvs
    have hkind : t.wire.isPackable = true := hpacked
    rw [packedPayload_scalars] at fits
    simp [packedEmission, Record.scalars, hkind, packedPayload_scalars,
      Scalar.unpack_pack _ _ fits]
  | message r => cases hpacked

theorem Slot.reads_entry (h : nested.Faithful S levels) {key : Scalar} {f : Field (FieldType Ref)}
    (hkey : key.isKey) (entries : List (MapKey × Value)) {e : MapKey × Value}
    (hk : e.1.HasKind key) (hv : Value.HasType S f.type e.2)
    (fits : (entryBytes S key f.type e).Addressable) :
    Reads levels (e.2.depth + 1)
      (Slot.mergeRecord S nested (entryEmission S key f e).record (.map key f) (.map entries))
      (.map (MapEntries.insert e.1 e.2 entries)) := by
  simp only [Slot.mergeRecord, entryEmission, Record.content_self, h.entry hkey hk hv fits]
  constructor
  · intro hle
    rw [if_pos hle]
  · intro hlt
    rw [if_neg (by omega)]

theorem Slot.reads_replace (h : nested.Faithful S levels) {f : Field (FieldType Ref)}
    (old : Option (Nat × Value)) {v : Value} (hv : Value.HasType S f.type v)
    (fits : (v.emission S f.type f.number).bytes.Addressable) :
    Reads levels v.depth
      (Slot.mergeRecord.replace S nested (v.record S f.type f.number) f old)
      (.oneof (some (f.number, v))) := by
  simp only [Slot.mergeRecord.replace, h.fresh_record hv fits, Value.record_number]
  constructor
  · intro hle
    rw [if_pos hle]
  · intro hlt
    rw [if_neg (by omega)]

theorem Slot.reads_member (h : nested.Faithful S levels) {name : String}
    {members : List (Field (FieldType Ref))} (distinct : (members.map (·.number)).Nodup)
    {f : Field (FieldType Ref)} (mem : f ∈ members) {old : Option (Nat × Value)} {v : Value}
    (hold : Slot.HasType S (.oneof name members) (.oneof old)) (hv : Value.HasType S f.type v)
    (fits : (v.emission S f.type f.number).bytes.Addressable) :
    Reads levels v.depth
      (Slot.mergeRecord S nested (v.record S f.type f.number) (.oneof name members) (.oneof old))
      (Slot.overlay S (.oneof name members) (.oneof old) (.oneof (some (f.number, v)))) := by
  have hfind := find?_of_nodup distinct mem
  have hreplace := Slot.reads_replace h old hv fits
  cases hold with
  | unset => simpa only [Slot.mergeRecord, Slot.overlay, Value.record_number, hfind] using hreplace
  | @member _ _ g w memg hw =>
    simp only [Slot.mergeRecord, Slot.overlay, Value.record_number, hfind]
    -- The member that was set is merged into; any other one is replaced.
    by_cases hnumber : g.number = f.number
    · have hgf : g = f := Option.some.inj ((find?_of_nodup distinct memg).symm.trans (hnumber ▸ hfind))
      subst hgf
      simpa using (h.reads_onto hw hv fits).map fun v => Slot.oneof (some (g.number, v))
    · simpa only [if_neg hnumber] using hreplace

/-! ## The records of a slot -/

theorem addressable_entryBytes {key : Scalar} {f : Field (FieldType Ref)} {e : MapKey × Value}
    (fits : (entryEmission S key f e).bytes.Addressable) :
    (entryBytes S key f.type e).Addressable :=
  fits.of_length_le (Nat.le_trans (length_le_delimit _) (Record.length_payload_le_keyed _ _ _))

theorem addressable_packedPayload {number : Nat} {vs : List Value}
    (fits : (packedEmission number vs).bytes.Addressable) : (packedPayload vs).Addressable :=
  fits.of_length_le (Nat.le_trans (length_le_delimit _) (Record.length_payload_le_keyed _ _ _))

theorem Slot.reads_emission (h : nested.Faithful S levels) {t : SlotType Ref} (wf : t.WellFormed)
    {old s : Slot} (hold : Slot.HasType S t old) (hs : Slot.HasType S t s) {e : Emission}
    (he : e ∈ Slot.emissions S t s) (fits : e.bytes.Addressable) :
    ∃ expected, Reads levels e.depth (Slot.mergeRecord S nested e.record t old) expected := by
  cases hs with
  | implicit f v =>
    rw [Slot.emissions] at he
    split at he
    · cases he
    · rw [List.mem_singleton.1 he]
      exact ⟨_, .of_ok (by simp only [Slot.mergeRecord, Value.emission, Value.record,
        Record.scalar_toPayload]; rfl)⟩
  | absent f => cases he
  | @present f v hv =>
    rw [Slot.emissions, List.mem_singleton] at he
    subst he
    obtain ⟨old, rfl⟩ : ∃ o, old = .optional o := by cases hold <;> exact ⟨_, rfl⟩
    exact ⟨_, Slot.reads_optional h hold hv fits⟩
  | @repeated f vs hvs =>
    obtain ⟨old, rfl⟩ : ∃ ws, old = .repeated ws := by cases hold; exact ⟨_, rfl⟩
    rw [Slot.emissions] at he
    split at he
    · rename_i hpacked
      split at he
      · cases he
      · -- A packed list is one record, however long it is.
        rw [List.mem_singleton.1 he] at fits ⊢
        exact ⟨_, .of_ok (Slot.mergeRecord_packed hpacked hvs (addressable_packedPayload fits))⟩
    · rename_i hpacked
      obtain ⟨v, hv, rfl⟩ := List.mem_map.1 he
      exact ⟨_, Slot.reads_element h (by simpa using hpacked) old (hvs v hv) fits⟩
  | @map key f entries sorted keys values =>
    obtain ⟨old, rfl⟩ : ∃ es, old = .map es := by cases hold; exact ⟨_, rfl⟩
    rw [Slot.emissions] at he
    obtain ⟨entry, hentry, rfl⟩ := List.mem_map.1 he
    exact ⟨_, Slot.reads_entry h wf.keys old (keys entry hentry) (values entry hentry)
      (addressable_entryBytes fits)⟩
  | unset name members => cases he
  | @member name members f v mem hv =>
    obtain ⟨old, rfl⟩ : ∃ o, old = .oneof o := by cases hold <;> exact ⟨_, rfl⟩
    rw [Slot.emissions, find?_of_nodup wf.distinct mem] at he
    rw [List.mem_singleton.1 he] at fits ⊢
    exact ⟨_, Slot.reads_member h wf.distinct mem hold hv fits⟩

theorem Record.applyAll_singleton {σ : Type} {step : Record → σ → Except DecodeError Unit × σ}
    {r : Record} {s s' : σ} (h : step r s = (.ok (), s')) : applyAll step [r] s = (.ok (), s') := by
  simp [applyAll, h]

theorem Slot.applyAll_elements (h : nested.Faithful S levels) {f : Field (FieldType Ref)}
    (hpacked : f.type.isPacked = false) {old vs : List Value}
    (hvs : ∀ v ∈ vs, Value.HasType S f.type v)
    (fits : ∀ v ∈ vs, (v.emission S f.type f.number).bytes.Addressable)
    (deep : ∀ v ∈ vs, v.depth ≤ levels) :
    Record.applyAll (fun rec o => Slot.mergeRecord S nested rec (.repeated f) o)
      (vs.map fun v => v.record S f.type f.number) (.repeated old) =
      (.ok (), .repeated (old ++ vs)) := by
  -- The list that was there grows by one element at a time.
  induction vs generalizing old with
  | nil => simp [Record.applyAll]
  | cons v vs ih =>
    have hfirst := (Slot.reads_element h hpacked old (hvs v (by simp))
      (fits v (by simp))).ok (deep v (by simp))
    rw [List.map_cons, Record.applyAll, hfirst]
    simp only
    rw [ih (fun w hw => hvs w (by simp [hw])) (fun w hw => fits w (by simp [hw]))
      fun w hw => deep w (by simp [hw])]
    simp

theorem Slot.applyAll_entries (h : nested.Faithful S levels) {key : Scalar}
    {f : Field (FieldType Ref)} (hkey : key.isKey) {old entries : List (MapKey × Value)}
    (keys : ∀ e ∈ entries, e.1.HasKind key) (values : ∀ e ∈ entries, Value.HasType S f.type e.2)
    (fits : ∀ e ∈ entries, (entryEmission S key f e).bytes.Addressable)
    (deep : ∀ e ∈ entries, e.2.depth + 1 ≤ levels) :
    Record.applyAll (fun rec o => Slot.mergeRecord S nested rec (.map key f) o)
      (entries.map fun e => (entryEmission S key f e).record) (.map old) =
      (.ok (), .map (MapEntries.insertAll entries old)) := by
  induction entries generalizing old with
  | nil => rfl
  | cons e entries ih =>
    have hfirst := (Slot.reads_entry h hkey old (keys e (by simp)) (values e (by simp))
      (addressable_entryBytes (fits e (by simp)))).ok (deep e (by simp))
    rw [List.map_cons, Record.applyAll, hfirst]
    simp only
    rw [ih (fun e' he => keys e' (by simp [he])) (fun e' he => values e' (by simp [he]))
      (fun e' he => fits e' (by simp [he])) fun e' he => deep e' (by simp [he])]
    rfl

/-- The records of a slot, read one after the other, lay it over the one that was there. -/
theorem Slot.applyAll_emissions (h : nested.Faithful S levels) {t : SlotType Ref}
    (wf : t.WellFormed) {old s : Slot} (hold : Slot.HasType S t old) (hs : Slot.HasType S t s)
    (fits : ∀ e ∈ Slot.emissions S t s, e.bytes.Addressable)
    (deep : ∀ e ∈ Slot.emissions S t s, e.depth ≤ levels) :
    Record.applyAll (fun rec o => Slot.mergeRecord S nested rec t o)
      ((Slot.emissions S t s).map (·.record)) old = (.ok (), Slot.overlay S t old s) := by
  cases hs with
  | implicit f v =>
    rw [Slot.emissions, Slot.overlay]
    split
    · rfl
    · refine Record.applyAll_singleton ?_
      simp only [Slot.mergeRecord, Value.emission, Value.record, Record.scalar_toPayload]
  | absent f =>
    rw [Slot.emissions, Slot.overlay] <;> first | rfl | simp
  | @present f v hv =>
    obtain ⟨old, rfl⟩ : ∃ o, old = .optional o := by cases hold <;> exact ⟨_, rfl⟩
    rw [Slot.emissions] at fits deep ⊢
    exact Record.applyAll_singleton ((Slot.reads_optional h hold hv
      (fits _ (List.mem_singleton_self _))).ok (deep _ (List.mem_singleton_self _)))
  | @repeated f vs hvs =>
    obtain ⟨old, rfl⟩ : ∃ ws, old = .repeated ws := by cases hold; exact ⟨_, rfl⟩
    rw [Slot.emissions] at fits deep ⊢
    rw [Slot.overlay]
    split
    · -- One record for the whole list, and none for an empty one.
      rename_i hpacked
      rw [if_pos hpacked] at fits
      split
      · rename_i hempty
        rw [List.isEmpty_iff.1 hempty, List.append_nil]
        rfl
      · rename_i hempty
        rw [if_neg hempty] at fits
        exact Record.applyAll_singleton (Slot.mergeRecord_packed hpacked hvs
          (addressable_packedPayload (fits _ (List.mem_singleton_self _))))
    · -- One record for each element.
      rename_i hpacked
      rw [if_neg hpacked] at fits deep
      rw [List.map_map]
      exact Slot.applyAll_elements h (by simpa using hpacked) hvs
        (fun v hv => fits _ (List.mem_map_of_mem hv)) fun v hv => deep _ (List.mem_map_of_mem hv)
  | @map key f entries sorted keys values =>
    obtain ⟨old, rfl⟩ : ∃ es, old = .map es := by cases hold; exact ⟨_, rfl⟩
    rw [Slot.emissions] at fits deep ⊢
    rw [Slot.overlay, List.map_map]
    exact Slot.applyAll_entries h wf.keys keys values
      (fun e he => fits _ (List.mem_map_of_mem he)) fun e he => deep _ (List.mem_map_of_mem he)
  | unset name members =>
    rw [Slot.emissions, Slot.overlay] <;> first | rfl | simp
  | @member name members f v mem hv =>
    obtain ⟨old, rfl⟩ : ∃ o, old = .oneof o := by cases hold <;> exact ⟨_, rfl⟩
    -- The writer finds the member again by its number.
    rw [Slot.emissions, find?_of_nodup wf.distinct mem] at fits deep ⊢
    exact Record.applyAll_singleton ((Slot.reads_member h wf.distinct mem hold hv
      (fits _ (List.mem_singleton_self _))).ok (deep _ (List.mem_singleton_self _)))

end Protobuf
