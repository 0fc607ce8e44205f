import Protobuf.Proofs.Time.Timestamp

/-! # Moments in local time

A moment is read from the text of its local time at any offset from UTC, and what is read from any
text has a text.

* `Timestamp.Offset`: hours and minutes to either side of UTC.
* `Timestamp.localText`: the text of a moment in local time.
* `Timestamp.inRange_of_ofText`: what is read is in range.
* `Timestamp.text_round_trip`: which moments have a text, and where they are read from.
-/

namespace Protobuf.Timestamp

/-- An offset from UTC: up to a day to either side, in minutes. -/
structure Offset where
  behind : Bool
  hours : ℕ
  minutes : ℕ
  hours_lt : hours < 24
  minutes_lt : minutes < 60

namespace Offset

def seconds (o : Offset) : Int :=
  if o.behind then -(3600 * o.hours + 60 * o.minutes) else 3600 * o.hours + 60 * o.minutes

def sign (o : Offset) : Char := if o.behind then '-' else '+'

def clock (o : Offset) : List Char := Fraction.padded 2 o.hours ++ ':' :: Fraction.padded 2 o.minutes

/-- An offset is read back. -/
theorem offset?_text (o : Offset) : offset? (o.sign :: o.clock) = some o.seconds := by
  obtain ⟨behind, hours, minutes, hhours, hminutes⟩ := o
  obtain ⟨h₁, h₂, hh, hhour⟩ := Fraction.exists_two_digits (show hours < 100 by omega)
  obtain ⟨m₁, m₂, hm, hminute⟩ := Fraction.exists_two_digits (show minutes < 100 by omega)
  have hclock : ¬(24 ≤ hours ∨ 60 ≤ minutes) := by omega
  have hsign : '-' ≠ '+' := by decide
  simp only [clock, hh, hm, List.cons_append, List.nil_append, offset?, twoDigits?, hhour, hminute,
    Option.bind_eq_bind, Option.bind_some, if_neg hclock, sign, seconds]
  cases behind <;> simp

end Offset

/-! ## Local time -/

/-- The local time of a moment, in seconds from the start of the first year. -/
def localSeconds (t : Timestamp) (o : Offset) : Int := t.seconds.toInt - minSeconds + o.seconds

def localDate (t : Timestamp) (o : Offset) : Date := Date.ofDay (t.localSeconds o / daySeconds)

/-- The date and the time of day where the clocks have an offset, the fraction, and the offset. -/
def localText (t : Timestamp) (o : Offset) : String :=
  String.ofList (dateTimeText (t.localDate o) (t.localSeconds o % daySeconds).toNat ++
    (Fraction.text t.nanos.toInt.toNat ++ o.sign :: o.clock))

/-- A moment is read from its local time. -/
theorem ofText_localText {t : Timestamp} (h : t.InRange) {o : Offset}
    (hyear : 1 ≤ (t.localDate o).year ∧ (t.localDate o).year ≤ 9999) :
    ofText (t.localText o) = .ok t := by
  have hn : t.nanos.toInt.toNat < 1000000000 := by
    have hnanos := h.2.2
    omega
  -- The offset that was added to the seconds is taken off again.
  refine ofText_ofDay h.isValid hyear ?_ (tail?_text hn ?_ ?_ o.offset?_text) ?_
  · unfold daySeconds
    omega
  · unfold Offset.sign
    cases o.behind <;> decide
  · unfold Offset.sign
    cases o.behind <;> decide
  · unfold localSeconds daySeconds
    omega

/-! ## What is read -/

/-- The fraction that is read is less than a second. -/
theorem tail?_lt {cs : List Char} {n : ℕ} {offset : Int} (h : tail? cs = some (n, offset)) :
    n < 1000000000 := by
  unfold tail? at h
  split at h
  · simp only at h
    split at h
    · cases h
    · rename_i hlength
      obtain ⟨offset', -, heq⟩ := Option.map_eq_some_iff.1 h
      cases heq
      exact Fraction.nanos_lt (List.all_eq_true.1 List.all_takeWhile) (by omega)
  · obtain ⟨offset', -, heq⟩ := Option.map_eq_some_iff.1 h
    cases heq
    decide

theorem nanos_of_fields? {cs : List Char} {f : Fields} (h : fields? cs = some f) :
    f.nanos < 1000000000 := by
  unfold fields? at h
  split at h
  · simp only [Option.bind_eq_bind, Option.bind_eq_some_iff] at h
    obtain ⟨year, -, month, -, day, -, hour, -, minute, -, second, -, ⟨n, offset⟩, htail, hf⟩ := h
    cases hf
    exact tail?_lt htail
  · cases h

/-- The end of a leap second is less than a second behind its start, as any fraction is. -/
theorem moment?_lt {f : Fields} {sinceStart : Int} {n : ℕ} (hf : f.nanos < 1000000000)
    (h : f.moment? = some (sinceStart, n)) : n < 1000000000 := by
  unfold Fields.moment? at h
  split at h
  · cases h
  · simp only at h
    split at h
    · split at h
      · cases h
        decide
      · cases h
    · cases h
      exact hf

/-- What is read is in range. -/
theorem inRange_of_ofText {s : String} {t : Timestamp} (h : ofText s = .ok t) : t.InRange := by
  unfold ofText at h
  split at h
  · rename_i t' hread
    cases h
    unfold ofText? at hread
    obtain ⟨f, hfields, hread⟩ := Option.bind_eq_some_iff.1 hread
    obtain ⟨⟨sinceStart, n⟩, hmoment, hread⟩ := Option.bind_eq_some_iff.1 hread
    have hn := moment?_lt (nanos_of_fields? hfields) hmoment
    simp only at hread
    split at hread
    · rename_i hrange
      cases hread
      have hmin : minSeconds = -62135596800 := rfl
      have hmax : maxSeconds = 253402300799 := rfl
      have hseconds : (Int64.ofInt (sinceStart + minSeconds)).toInt = sinceStart + minSeconds :=
        Int64.toInt_ofInt_of_le (by omega) (by omega)
      have hnanos : (Int32.ofInt n).toInt = n := Int32.toInt_ofInt_of_le (by omega) (by omega)
      unfold InRange
      rw [hseconds, hnanos]
      omega
    · cases hread
  · cases h

/-- The moments that have a text are those in range. -/
theorem exists_toText_iff (t : Timestamp) : (∃ s, t.toText = .ok s) ↔ t.InRange := by
  constructor
  · rintro ⟨s, hs⟩
    unfold toText at hs
    split at hs
    · rename_i hvalid
      obtain ⟨hlow, hhigh, hnanos, hnanos'⟩ := hvalid
      exact ⟨hlow, hhigh, hnanos, by omega⟩
    · cases hs
  · intro hrange
    obtain ⟨s, hs, -⟩ := ofText_toText hrange
    exact ⟨s, hs⟩

/-- The moments in range are those that have a text.  Each is read from it, and from the text of
    its local time at any offset that keeps it within the years 1 to 9999.  Only moments that have a
    text are read from any. -/
theorem text_round_trip (t : Timestamp) :
    ((∃ s, t.toText = .ok s) ↔ t.InRange) ∧
      (∀ s, t.toText = .ok s → ofText s = .ok t) ∧
      (∀ o : Offset, t.InRange → 1 ≤ (t.localDate o).year → (t.localDate o).year ≤ 9999 →
        ofText (t.localText o) = .ok t) ∧
      ∀ s, ofText s = .ok t → ∃ written, t.toText = .ok written := by
  refine ⟨exists_toText_iff t, ?_, ?_, ?_⟩
  · intro s hs
    obtain ⟨s', hs', hread⟩ := ofText_toText ((exists_toText_iff t).1 ⟨s, hs⟩)
    cases hs.symm.trans hs'
    exact hread
  · intro o hrange hlow hhigh
    exact ofText_localText hrange ⟨hlow, hhigh⟩
  · intro s hread
    exact (exists_toText_iff t).2 (inRange_of_ofText hread)

end Protobuf.Timestamp
