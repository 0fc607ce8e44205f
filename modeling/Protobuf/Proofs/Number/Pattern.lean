import Mathlib.Tactic.Ring
import Protobuf.Number.Binary

/-! # Values and patterns of a binary format

A finite value has one pattern, and it is the pattern of no other value.

* `FloatFormat.Canonical`, `FloatFormat.pattern`: the finite values of a format and their patterns.
* `FloatFormat.denote_pattern`, `FloatFormat.eq_pattern`: they stand for each other.
* `FloatFormat.eq_infinity`: an infinity has one pattern too.
-/

namespace Protobuf

namespace FloatFormat

/-- A finite value `m · 2^e` of a format: the mantissa fits, the exponent is neither too low nor
    that of the infinities, and the hidden bit is set unless the exponent is the least. -/
structure Canonical (fmt : FloatFormat) (m : ℕ) (e : ℤ) : Prop where
  lt : m < 2 * fmt.hiddenBit
  least : fmt.minExponent ≤ e
  hidden : fmt.hiddenBit ≤ m ∨ e = fmt.minExponent
  finite : (e - fmt.minExponent).toNat + 2 < fmt.exponentCount

def pattern (fmt : FloatFormat) (m : ℕ) (e : ℤ) : ℕ :=
  (e - fmt.minExponent).toNat * fmt.hiddenBit + m

variable {fmt : FloatFormat} {m : ℕ} {e : ℤ} {negative : Bool} {bits : ℕ}

theorem hiddenBit_pos (fmt : FloatFormat) : 0 < fmt.hiddenBit := Nat.two_pow_pos _

/-- A pattern is made of its sign, its exponent field and its fraction. -/
theorem bits_eq (fmt : FloatFormat) (bits : ℕ) :
    bits = bits / fmt.signBit * fmt.signBit +
      (bits / fmt.hiddenBit % fmt.exponentCount * fmt.hiddenBit + bits % fmt.hiddenBit) := by
  have hbits := Nat.div_add_mod bits fmt.hiddenBit
  have hfield := Nat.div_add_mod (bits / fmt.hiddenBit) fmt.exponentCount
  rw [Nat.div_div_eq_div_mul, Nat.mul_comm fmt.hiddenBit, ← signBit] at hfield
  calc bits = fmt.hiddenBit * (bits / fmt.hiddenBit) + bits % fmt.hiddenBit := hbits.symm
    _ = fmt.hiddenBit * (fmt.exponentCount * (bits / fmt.signBit) +
          bits / fmt.hiddenBit % fmt.exponentCount) + bits % fmt.hiddenBit := by rw [hfield]
    _ = _ := by rw [signBit]; ring

theorem withSign_eq (fmt : FloatFormat) (negative : Bool) (magnitude : ℕ) :
    fmt.withSign negative magnitude = negative.toNat * fmt.signBit + magnitude := by
  cases negative <;> simp [withSign]

/-- What a pattern denotes whose parts are known. -/
theorem denote_parts {field fraction : ℕ} (hfield : field < fmt.exponentCount)
    (hfraction : fraction < fmt.hiddenBit) (negative : Bool) :
    fmt.denote (fmt.withSign negative (field * fmt.hiddenBit + fraction)) =
      if field = fmt.exponentCount - 1 then
        if fraction = 0 then .infinite negative else .nan
      else if field = 0 then .finite negative fraction fmt.minExponent
      else .finite negative (fmt.hiddenBit + fraction) (fmt.minExponent + (field - 1 : ℕ)) := by
  have hhidden := fmt.hiddenBit_pos
  have hbits : fmt.withSign negative (field * fmt.hiddenBit + fraction) =
      fraction + fmt.hiddenBit * (field + fmt.exponentCount * negative.toNat) := by
    rw [withSign_eq, signBit]
    ring
  have hquotient : (fraction + fmt.hiddenBit * (field + fmt.exponentCount * negative.toNat)) /
      fmt.hiddenBit = field + fmt.exponentCount * negative.toNat := by
    rw [Nat.add_mul_div_left _ _ hhidden, Nat.div_eq_of_lt hfraction, Nat.zero_add]
  have hsign : (fraction + fmt.hiddenBit * (field + fmt.exponentCount * negative.toNat)) /
      fmt.signBit = negative.toNat := by
    rw [signBit, Nat.mul_comm fmt.exponentCount fmt.hiddenBit, ← Nat.div_div_eq_div_mul, hquotient,
      Nat.add_mul_div_left _ _ (by omega), Nat.div_eq_of_lt hfield, Nat.zero_add]
  unfold denote
  simp only [hbits, hquotient, hsign, Nat.add_mul_mod_self_left, Nat.mod_eq_of_lt hfield,
    Nat.mod_eq_of_lt hfraction]
  cases negative <;> rfl

/-- A finite value is what its pattern denotes. -/
theorem denote_pattern (h : fmt.Canonical m e) (negative : Bool) :
    fmt.denote (fmt.withSign negative (fmt.pattern m e)) = .finite negative m e := by
  obtain ⟨hlt, hleast, hhidden, hfinite⟩ := h
  obtain ⟨field, hfield⟩ : ∃ field : ℕ, e = fmt.minExponent + field :=
    ⟨(e - fmt.minExponent).toNat, by omega⟩
  have hexponent : (e - fmt.minExponent).toNat = field := by omega
  rw [hexponent] at hfinite
  rw [pattern, hexponent]
  rcases lt_or_ge m fmt.hiddenBit with hsmall | hlarge
  · obtain rfl : field = 0 := by
      have := hhidden.resolve_left hsmall.not_ge
      omega
    rw [denote_parts (by omega) hsmall, if_neg (by omega), if_pos rfl, hfield, Int.natCast_zero,
      Int.add_zero]
  · -- The hidden bit is not written: it carries into the exponent field.
    obtain ⟨fraction, rfl⟩ := Nat.exists_eq_add_of_le hlarge
    have hcarry : field * fmt.hiddenBit + (fmt.hiddenBit + fraction) =
        (field + 1) * fmt.hiddenBit + fraction := by ring
    rw [hcarry, denote_parts (by omega) (by omega), if_neg (by omega), if_neg (by omega), hfield,
      Nat.add_sub_cancel]

/-- Every pattern is made of parts. -/
theorem exists_parts (hbits : bits < 2 * fmt.signBit) :
    ∃ negative field fraction, field < fmt.exponentCount ∧ fraction < fmt.hiddenBit ∧
      bits = fmt.withSign negative (field * fmt.hiddenBit + fraction) := by
  have hsign : bits / fmt.signBit < 2 := Nat.div_lt_of_lt_mul (by rwa [Nat.mul_comm])
  have hsplit := bits_eq fmt bits
  obtain ⟨negative, hnegative⟩ : ∃ negative : Bool, bits / fmt.signBit = negative.toNat := by
    rcases Nat.le_one_iff_eq_zero_or_eq_one.1 (Nat.le_of_lt_succ hsign) with hzero | hone
    · exact ⟨false, hzero⟩
    · exact ⟨true, hone⟩
  rw [hnegative, ← withSign_eq] at hsplit
  exact ⟨negative, _, _, Nat.mod_lt _ (Nat.two_pow_pos _), Nat.mod_lt _ fmt.hiddenBit_pos, hsplit⟩

/-- A pattern that denotes a finite value is that of the value. -/
theorem eq_pattern (wide : 2 < fmt.exponentCount) (hbits : bits < 2 * fmt.signBit)
    (h : fmt.denote bits = .finite negative m e) :
    fmt.Canonical m e ∧ bits = fmt.withSign negative (fmt.pattern m e) := by
  obtain ⟨sign, field, fraction, hfield, hfraction, rfl⟩ := exists_parts hbits
  rw [denote_parts hfield hfraction] at h
  split at h
  · split at h <;> cases h
  rename_i hfinite
  split at h
  · rename_i hzero
    cases h
    refine ⟨⟨by omega, le_rfl, .inr rfl, by simpa using wide⟩, ?_⟩
    rw [hzero, pattern, Int.sub_self]
    rfl
  · rename_i hnonzero
    cases h
    have hexponent : (fmt.minExponent + (field - 1 : ℕ) - fmt.minExponent).toNat = field - 1 := by
      omega
    refine ⟨⟨by omega, by omega, .inl (by omega), by omega⟩, ?_⟩
    obtain ⟨field, rfl⟩ := Nat.exists_eq_succ_of_ne_zero hnonzero
    rw [pattern, hexponent, Nat.succ_eq_add_one, Nat.add_sub_cancel]
    congr 1
    ring

/-- A pattern that denotes an infinity is that of the infinity. -/
theorem eq_infinity (hbits : bits < 2 * fmt.signBit) (h : fmt.denote bits = .infinite negative) :
    bits = fmt.withSign negative fmt.infinity := by
  obtain ⟨sign, field, fraction, hfield, hfraction, rfl⟩ := exists_parts hbits
  rw [denote_parts hfield hfraction] at h
  split at h
  · rename_i hinfinite
    split at h
    · rename_i hzero
      cases h
      rw [hzero, hinfinite]
      rfl
    · cases h
  · split at h <;> cases h

theorem pattern_lt (h : fmt.Canonical m e) : fmt.pattern m e < fmt.infinity := by
  have hle : (e - fmt.minExponent).toNat + 2 ≤ fmt.exponentCount - 1 := by
    have := h.finite
    omega
  calc fmt.pattern m e < (e - fmt.minExponent).toNat * fmt.hiddenBit + 2 * fmt.hiddenBit :=
        Nat.add_lt_add_left h.lt _
    _ = ((e - fmt.minExponent).toNat + 2) * fmt.hiddenBit := by ring
    _ ≤ fmt.infinity := Nat.mul_le_mul_right _ hle

end FloatFormat

end Protobuf
