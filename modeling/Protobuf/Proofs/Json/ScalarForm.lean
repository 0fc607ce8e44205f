import Protobuf.Proofs.Number.Digits
import Protobuf.Proofs.Number.Pattern
import Protobuf.Proofs.Schema.Typing
import Protobuf.Proofs.Text.Base64

/-! # Single values are read back from JSON

What JSON can say of a scalar, of an enum value and of the key of a map entry, it says
so that the same value is read back.

* `Scalar.Exact`: the scalars that JSON can say.
* `Scalar.ofJson_toJson`, `Scalar.isNull_toJson`: one scalar.
* `EnumType.ofJson_toJson`: one value of an enum, whether it has a name or not.
* `MapKey.ofText_toText`, `MapKey.toText_injective`: one key.
-/

namespace Protobuf

namespace JsonForm

theorem integer_ofInt {low high n : Int} (hlow : low ≤ n) (hhigh : n ≤ high) :
    integer low high (.ofInt n) = .ok n := by
  unfold integer Json.ofInt
  rw [wide]
  exact if_pos ⟨hlow, hhigh⟩

theorem integer_toString {low high n : Int} (hlow : low ≤ n) (hhigh : n ≤ high)
    (hwide : -maxWide - 1 ≤ low ∧ high ≤ maxWide) :
    integer low high (.string (toString n)) = .ok n := by
  have hread := Literal.integerWithin?_toString (Int.le_trans hwide.1 hlow)
    (Int.le_trans hhigh hwide.2)
  unfold integer
  rw [wide, hread]
  exact if_pos ⟨hlow, hhigh⟩

theorem eq_infinity {x : Binary64} {negative : Bool} (h : x.denote = .infinite negative) :
    x = Binary64.infinity negative := by
  have hbits := FloatFormat.eq_infinity x.bits.toNat_lt h
  rw [Binary64.infinity, ← hbits, UInt64.ofNat_toNat]

theorem double_ofDouble {x : Binary64} (h : x.denote = .nan → x = Binary64.nan) :
    double (ofDouble x) = .ok x := by
  unfold ofDouble
  cases hx : x.denote with
  | nan => rw [h hx]; rfl
  | infinite negative =>
    rw [eq_infinity hx]
    cases negative <;> rfl
  | finite negative m e => rfl

theorem isNull_ofDouble (x : Binary64) : (ofDouble x).isNull = false := by
  unfold ofDouble
  cases nonFinite? x.denote <;> rfl

theorem isNull_ofSingle (x : Binary32) : (ofSingle x).isNull = false := by
  unfold ofSingle
  cases x.denote with
  | nan => rfl
  | infinite negative => cases negative <;> rfl
  | finite negative m e => rfl

theorem bytes_encode (bs : Bytes) : bytes (.string (Base64.encode bs)) = .ok bs := by
  rw [bytes, Base64.decodeTolerant?_encode]

end JsonForm

/-! ## Scalars and enums -/

namespace Scalar

/-- A scalar that JSON can say: not every NaN has a name of its own, and a
    single-precision number is written with the digits that name it among its likes. -/
def Exact : (k : Scalar) → k.Carrier → Prop
  | double, x => Binary64.denote x = .nan → x = Binary64.nan
  | float, x => JsonForm.single (JsonForm.ofSingle x) = .ok x
  | _, _ => True

/-- What was written is not `null`, which would count as nothing. -/
theorem isNull_toJson (k : Scalar) (x : k.Carrier) : (k.toJson x).isNull = false := by
  cases k with
  | double => exact JsonForm.isNull_ofDouble x
  | float => exact JsonForm.isNull_ofSingle x
  | _ => rfl

theorem int32OfJson_ofInt (n : Int32) : int32OfJson (.ofInt n.toInt) = .ok n := by
  have hlow := n.le_toInt
  have hhigh := n.toInt_lt
  rw [int32OfJson, JsonForm.integer_ofInt (by omega) (by omega), Except.map, Int32.ofInt_toInt]

theorem uint32OfJson_ofInt (n : UInt32) : uint32OfJson (.ofInt n.toNat) = .ok n := by
  have hhigh := n.toNat_lt
  rw [uint32OfJson, JsonForm.integer_ofInt (by omega) (by omega), Except.map, Int.toNat_natCast,
    UInt32.ofNat_toNat]

theorem int64OfJson_toString (n : Int64) :
    int64OfJson (.string (toString n.toInt)) = .ok n := by
  have hlow := n.le_toInt
  have hhigh := n.toInt_lt
  rw [int64OfJson, JsonForm.integer_toString (by omega) (by omega) (by decide), Except.map,
    Int64.ofInt_toInt]

theorem uint64OfJson_toString (n : UInt64) :
    uint64OfJson (.string (toString n.toNat)) = .ok n := by
  have hhigh := n.toNat_lt
  have hread := @JsonForm.integer_toString 0 0xFFFF_FFFF_FFFF_FFFF n.toNat (by omega) (by omega)
    (by decide)
  have htext : toString (n.toNat : Int) = toString n.toNat := rfl
  rw [uint64OfJson, ← htext, hread, Except.map, Int.toNat_natCast, UInt64.ofNat_toNat]

/-- A scalar that JSON can say is read back. -/
theorem ofJson_toJson {k : Scalar} {x : k.Carrier} (h : k.Exact x) : k.ofJson (k.toJson x) = .ok x := by
  cases k with
  | double => exact JsonForm.double_ofDouble h
  | float => exact h
  | int32 | sint32 | sfixed32 => exact int32OfJson_ofInt x
  | int64 | sint64 | sfixed64 => exact int64OfJson_toString x
  | uint32 | fixed32 => exact uint32OfJson_ofInt x
  | uint64 | fixed64 => exact uint64OfJson_toString x
  | bool => rfl
  | string => rfl
  | bytes => exact JsonForm.bytes_encode x

end Scalar

namespace EnumType

variable {e : EnumType}

/-- A value of an enum is read back: by its name if it has one, and else by its number. -/
theorem ofJson_toJson (distinct : (e.values.map (·.1)).Nodup) (n : Int32) :
    e.ofJson (e.toJson n) = .ok n := by
  unfold toJson
  cases hname : e.nameOf? n with
  | none => exact Scalar.int32OfJson_ofInt n
  | some name =>
    -- Aliases share a number, but no two values share a name.
    obtain ⟨v, hfind, rfl⟩ := Option.map_eq_some_iff.1 hname
    have hnumber : v.2 = n := by simpa using List.find?_some hfind
    have hback := find?_of_nodup distinct (List.mem_of_find?_eq_some hfind)
    simp only [ofJson, numberOf?, hback, Option.map_some, hnumber]

theorem isNull_toJson (e : EnumType) (n : Int32) : (e.toJson n).isNull = false := by
  unfold toJson
  cases e.nameOf? n <;> rfl

end EnumType

/-! ## Map keys -/

namespace MapKey

variable {k : Scalar}

theorem ofText_integer {low high n : Int} (hrange : range? k = some (low, high)) (hlow : low ≤ n)
    (hhigh : n ≤ high) : ofText k (integer n).toText = .ok (integer n) := by
  have hread := Literal.integerWithin?_toString hlow hhigh
  unfold ofText
  split
  · cases hrange
  · simp only [hrange, toText, hread]

theorem ofText_toText (hk : k.isKey) {key : MapKey} (h : key.HasKind k) :
    ofText k key.toText = .ok key := by
  obtain ⟨v, rfl⟩ := h
  -- Every integer of a kind is within the range of the kind.
  cases k with
  | double | float | bytes => simp [Scalar.isKey] at hk
  | int32 | sint32 | sfixed32 =>
    have hhigh := Int32.toInt_lt v
    exact ofText_integer rfl (Int32.le_toInt v) (by omega)
  | int64 | sint64 | sfixed64 =>
    have hhigh := Int64.toInt_lt v
    exact ofText_integer rfl (Int64.le_toInt v) (by omega)
  | uint32 | fixed32 =>
    have hhigh := UInt32.toNat_lt v
    exact ofText_integer rfl (by omega) (by omega)
  | uint64 | fixed64 =>
    have hhigh := UInt64.toNat_lt v
    exact ofText_integer rfl (by omega) (by omega)
  | bool => cases v <;> rfl
  | string => rfl

/-- Different keys of one kind have different texts. -/
theorem toText_injective (hk : k.isKey) {a b : MapKey} (ha : a.HasKind k) (hb : b.HasKind k)
    (h : a.toText = b.toText) : a = b := by
  have hread := ofText_toText hk ha
  rw [h, ofText_toText hk hb] at hread
  exact (Except.ok.inj hread).symm

end MapKey

end Protobuf
