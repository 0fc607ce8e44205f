import Mathlib.Data.List.Forall2
import Protobuf.Json.ScalarForm
import Protobuf.Proofs.Text.Base64

/-! # Base64 in JSON texts

Bytes are read from the variants of their canonical text and from nothing else: either alphabet,
the two of them mixed, and as much of the padding as one likes.

* `Base64.standardText`, `Base64.filled`: a text in the standard alphabet, and one with its
  padding.
* `Base64.IsVariant`: the variants of a canonical text.
* `Base64.Faulty`: foreign characters, padding out of place, bits to spare.
* `JsonForm.bytes_of_text`: what is read of a text.
-/

namespace Protobuf

namespace Base64

def standardText (text : String) : String := String.ofList (text.toList.map standardChar)

def filled (text : String) : String :=
  text ++ String.ofList (List.replicate ((4 - text.utf8ByteSize % 4) % 4) '=')

theorem utf8ByteSize_ofList {cs : List Char} (h : ∀ c ∈ cs, c.utf8Size = 1) :
    (String.ofList cs).utf8ByteSize = cs.length := by
  rw [← String.size_toByteArray, String.toByteArray_ofList]
  induction cs with
  | nil => rfl
  | cons c cs ih =>
    rw [List.forall_mem_cons] at h
    rw [List.utf8Encode_cons, ByteArray.size_append, ih h.2, List.utf8Encode_singleton,
      List.size_toByteArray, String.length_utf8EncodeChar, h.1, List.length_cons, Nat.add_comm]

theorem utf8Size_digit : ∀ n < 64, (digit n).utf8Size = 1 := by decide +kernel

theorem Formed.utf8Size {cs : List Char} {bytes : Bytes} {digits : List Nat} {padding : Nat}
    (h : Formed cs bytes digits padding) : ∀ c ∈ cs, c.utf8Size = 1 := by
  intro c hc
  obtain ⟨i, hi⟩ := List.mem_iff_getElem?.1 hc
  rcases h.getElem? hi with ⟨n, -, hn, rfl⟩ | ⟨-, -, rfl⟩
  · exact utf8Size_digit n hn
  · decide

/-- Padding is counted in bytes, but what has a byte more than characters is not canonical. -/
theorem filled_standardText_eq_iff (text : String) (bytes : Bytes) :
    filled (standardText text) = encode bytes ↔
      pad (text.toList.map standardChar) = encodeChars bytes := by
  obtain ⟨digits, padding, formed⟩ := exists_formed bytes
  rw [← String.toList_inj, filled, standardText, encode, String.toList_append, String.toList_ofList,
    String.toList_ofList, String.toList_ofList, pad]
  generalize text.toList.map standardChar = cs
  by_cases small : ∀ c ∈ cs, c.utf8Size = 1
  · rw [utf8ByteSize_ofList small]
  · have large : ∀ padding, cs ++ padding ≠ encodeChars bytes := fun padding heq =>
      small fun c hc => formed.utf8Size c (heq ▸ List.mem_append_left padding hc)
    exact iff_of_false (large _) (large _)

/-- The tolerant reader accepts what is canonical once it is mended. -/
theorem decodeTolerant?_eq_some_iff {text : String} {bytes : Bytes} :
    decodeTolerant? text = some bytes ↔ filled (standardText text) = encode bytes := by
  rw [decodeTolerant?, decode?_eq_some_iff, filled_standardText_eq_iff]

/-! ## Variants -/

/-- A character stands for itself, or for one of the two that the other alphabet lacks. -/
inductive Stands : Char → Char → Prop
  | self (c : Char) : Stands c c
  | minus : Stands '-' '+'
  | underscore : Stands '_' '/'

/-- The variants of the canonical text of bytes: in either alphabet, with all, some or none of
    its padding. -/
def IsVariant (cs : List Char) (bytes : Bytes) : Prop :=
  ∃ (kept : List Char) (cut : Nat), encodeChars bytes = kept ++ List.replicate cut '=' ∧
    List.Forall₂ Stands cs kept

theorem stands_standardChar (c : Char) : Stands c (standardChar c) := by
  unfold standardChar
  split
  · rename_i h
    exact h ▸ .minus
  · split
    · rename_i h
      exact h ▸ .underscore
    · exact .self c

theorem Formed.standardChar {cs : List Char} {bytes : Bytes} {digits : List Nat} {padding : Nat}
    (h : Formed cs bytes digits padding) {c d : Char} (hd : d ∈ cs) (stands : Stands c d) :
    standardChar c = d := by
  cases stands with
  | self =>
    obtain ⟨i, hi⟩ := List.mem_iff_getElem?.1 hd
    rcases h.getElem? hi with ⟨n, -, hn, rfl⟩ | ⟨-, -, rfl⟩
    · exact standardChar_digit n hn
    · decide
  | minus => decide
  | underscore => decide

/-- At most two characters of padding are there to be cut off. -/
theorem Formed.cut_le {kept : List Char} {cut : Nat} {bytes : Bytes} {digits : List Nat}
    {padding : Nat} (h : Formed (kept ++ List.replicate cut '=') bytes digits padding) :
    cut ≤ padding ∧ kept.length + cut = digits.length + padding := by
  have length := congrArg List.length h.text
  simp only [List.length_append, List.length_replicate, List.length_map] at length
  refine ⟨?_, length⟩
  by_contra hcut
  -- The first character that was cut off would stand at the place of a digit.
  have first : (kept ++ List.replicate cut '=')[kept.length]? = some '=' := by
    rw [List.getElem?_append_right (Nat.le_refl _), Nat.sub_self, List.getElem?_replicate,
      if_pos (by omega)]
  rcases h.getElem? first with ⟨n, -, hn, hdigit⟩ | ⟨hplace, -, -⟩
  · exact digit_ne_padding n hn hdigit.symm
  · omega

theorem pad_eq_encodeChars_iff (cs : List Char) (bytes : Bytes) :
    pad (cs.map standardChar) = encodeChars bytes ↔ IsVariant cs bytes := by
  constructor
  · intro h
    refine ⟨_, _, h.symm, ?_⟩
    rw [List.forall₂_map_right_iff, List.forall₂_same]
    exact fun c _ => stands_standardChar c
  · rintro ⟨kept, cut, htext, stands⟩
    obtain ⟨digits, padding, formed⟩ := exists_formed bytes
    have hkept : cs.map standardChar = kept := by
      rw [htext] at formed
      have each : List.Forall₂ (fun c d => standardChar c = d) cs kept :=
        List.forall₂_iff_zip.2 ⟨stands.length_eq, fun hzip =>
          formed.standardChar (List.mem_append_left _ (List.of_mem_zip hzip).2)
            (List.forall₂_zip stands hzip)⟩
      exact List.forall₂_eq_eq_eq ▸ List.forall₂_map_left_iff.2 each
    -- What is filled in is what was cut off, as less than a group of padding was there.
    have hcut : (4 - kept.length % 4) % 4 = cut := by
      have bits := formed.bits
      have padding_lt := formed.padding_lt
      rw [htext] at formed
      obtain ⟨hle, hlength⟩ := formed.cut_le
      omega
    rw [pad, hkept, hcut, htext]

/-! ## Faults -/

/-- What keeps a text from being a variant of any canonical text. -/
inductive Faulty (cs : List Char) : Prop
  /-- A character of neither alphabet. -/
  | foreign {c : Char} (mem : c ∈ cs) (value : value? (standardChar c) = none) (ne : c ≠ '=')
  /-- Padding in the first half of a group, or with something else behind it. -/
  | misplaced {front back : List Char} (text : cs = front ++ '=' :: back)
    (place : front.length % 4 < 2 ∨ ∃ c ∈ back, c ≠ '=')
  /-- A last digit that stands alone in its group. -/
  | lone {front : List Char} {c : Char} {padding : Nat}
    (text : cs = front ++ c :: List.replicate padding '=') (ne : c ≠ '=')
    (place : front.length % 4 = 0)
  /-- A last digit some of whose bits are left over, and not zero. -/
  | spare {front : List Char} {c : Char} {n padding : Nat}
    (text : cs = front ++ c :: List.replicate padding '=') (value : value? (standardChar c) = some n)
    (bits : front.length % 4 = 1 ∧ n % 16 ≠ 0 ∨ front.length % 4 = 2 ∧ n % 4 ≠ 0)

section

variable {cs : List Char} {bytes : Bytes} {digits : List Nat} {padding : Nat}

theorem eq_padding_of_standardChar {c : Char} (h : standardChar c = '=') : c = '=' := by
  unfold standardChar at h
  split at h
  · exact absurd h (by decide)
  · split at h
    · exact absurd h (by decide)
    · exact h

/-- A variant has the digits of the canonical text at its first places, and padding behind
    them. -/
theorem IsVariant.getElem? (h : IsVariant cs bytes)
    (formed : Formed (encodeChars bytes) bytes digits padding) {i : Nat} {c : Char}
    (hc : cs[i]? = some c) :
    (digits[i]? = value? (standardChar c) ∧ i < digits.length ∧ c ≠ '=') ∨
      digits.length ≤ i ∧ i < digits.length + padding ∧ c = '=' := by
  rw [← pad_eq_encodeChars_iff] at h
  have hlt : i < cs.length := (List.getElem?_eq_some_iff.1 hc).1
  have hplace : (pad (cs.map standardChar))[i]? = some (standardChar c) := by
    rw [pad, List.getElem?_append_left (by simpa using hlt), List.getElem?_map, hc]
    rfl
  rw [h] at hplace
  rcases formed.getElem? hplace with ⟨n, hn, hlt, hdigit⟩ | ⟨hle, hlt, hpadding⟩
  · refine .inl ⟨?_, (List.getElem?_eq_some_iff.1 hn).1, ?_⟩
    · rw [hn, hdigit, value?_digit n hlt]
    · rintro rfl
      exact digit_ne_padding n hlt hdigit.symm
  · exact .inr ⟨hle, hlt, eq_padding_of_standardChar hpadding⟩

/-- A character that is no padding is a digit. -/
theorem IsVariant.getElem?_of_ne (h : IsVariant cs bytes)
    (formed : Formed (encodeChars bytes) bytes digits padding) {i : Nat} {c : Char}
    (hc : cs[i]? = some c) (ne : c ≠ '=') : digits[i]? = value? (standardChar c) ∧ i < digits.length := by
  obtain ⟨hvalue, hlt, -⟩ := (h.getElem? formed hc).resolve_right fun hpadding => ne hpadding.2.2
  exact ⟨hvalue, hlt⟩

/-- Padding stands behind the digits. -/
theorem IsVariant.getElem?_padding (h : IsVariant cs bytes)
    (formed : Formed (encodeChars bytes) bytes digits padding) {i : Nat} (hc : cs[i]? = some '=') :
    digits.length ≤ i ∧ i < digits.length + padding := by
  obtain ⟨hge, hlt, -⟩ := (h.getElem? formed hc).resolve_left fun hdigit => hdigit.2.2 rfl
  exact ⟨hge, hlt⟩

theorem IsVariant.length_digits_le (h : IsVariant cs bytes)
    (formed : Formed (encodeChars bytes) bytes digits padding) : digits.length ≤ cs.length := by
  obtain ⟨kept, cut, htext, stands⟩ := h
  rw [htext] at formed
  obtain ⟨hcut, hlength⟩ := formed.cut_le
  have := stands.length_eq
  omega

/-- The character in front of the padding of a variant is its last digit. -/
theorem IsVariant.last {front : List Char} {c : Char} {n : Nat}
    (h : IsVariant (front ++ c :: List.replicate n '=') bytes)
    (formed : Formed (encodeChars bytes) bytes digits padding) (ne : c ≠ '=') :
    digits.length = front.length + 1 ∧ digits.getLast? = value? (standardChar c) := by
  have hc : (front ++ c :: List.replicate n '=')[front.length]? = some c := by simp
  obtain ⟨hvalue, hlt⟩ := h.getElem?_of_ne formed hc ne
  have hlength : digits.length = front.length + 1 := by
    have hle := h.length_digits_le formed
    rcases Nat.eq_zero_or_pos n with rfl | hpos
    · simp at hle
      omega
    · -- Behind it stands padding, and no digit does so.
      have hnext : (front ++ c :: List.replicate n '=')[front.length + 1]? = some '=' := by
        rw [List.getElem?_append_right (by omega), Nat.add_sub_cancel_left,
          List.getElem?_cons_succ, List.getElem?_replicate, if_pos hpos]
      have hge := (h.getElem?_padding formed hnext).1
      omega
  refine ⟨hlength, ?_⟩
  rw [List.getLast?_eq_getElem?, hlength, Nat.add_sub_cancel, hvalue]

/-- A text with a fault is no variant of any canonical text. -/
theorem Faulty.not_isVariant (fault : Faulty cs) : ¬IsVariant cs bytes := by
  intro h
  obtain ⟨digits, padding, formed⟩ := exists_formed bytes
  have bits := formed.bits
  have padding_lt := formed.padding_lt
  cases fault with
  | @foreign c mem value ne =>
    obtain ⟨i, hi⟩ := List.mem_iff_getElem?.1 mem
    obtain ⟨hvalue, hlt⟩ := h.getElem?_of_ne formed hi ne
    -- Whatever is no padding stands for a digit of the canonical text.
    rw [value, List.getElem?_eq_none_iff] at hvalue
    omega
  | @misplaced front back text place =>
    subst text
    obtain ⟨hge, hlt⟩ := h.getElem?_padding formed (i := front.length) (by simp)
    rcases place with place | ⟨c, hc, hne⟩
    · omega
    · -- Behind padding there is no digit any more.
      obtain ⟨j, hj⟩ := List.mem_iff_getElem?.1 hc
      have hlater : (front ++ '=' :: back)[front.length + (j + 1)]? = some c := by
        rw [List.getElem?_append_right (by omega), Nat.add_sub_cancel_left,
          List.getElem?_cons_succ, hj]
      have := (h.getElem?_of_ne formed hlater hne).2
      omega
  | @lone front c n text ne place =>
    subst text
    obtain ⟨hlength, -⟩ := h.last formed ne
    omega
  | @spare front c v n text value spare =>
    subst text
    have ne : c ≠ '=' := by
      rintro rfl
      cases value
    obtain ⟨hlength, hlast⟩ := h.last formed ne
    -- In a canonical text the bits that are left over are zero.
    have hdvd := formed.dvd_last (hlast.trans value)
    rcases spare with ⟨place, hbits⟩ | ⟨place, hbits⟩
    · have : padding = 2 := by omega
      subst this
      exact hbits (Nat.mod_eq_zero_of_dvd hdvd)
    · have : padding = 1 := by omega
      subst this
      exact hbits (Nat.mod_eq_zero_of_dvd hdvd)

end

end Base64

namespace JsonForm

theorem bytes_eq_ok_iff {text : String} {bs : Bytes} :
    bytes (.string text) = .ok bs ↔ Base64.decodeTolerant? text = some bs := by
  rw [bytes]
  cases Base64.decodeTolerant? text <;> simp

theorem bytes_eq_error_iff {text : String} :
    bytes (.string text) = .error .invalidBase64 ↔ ∀ bs, bytes (.string text) ≠ .ok bs := by
  rw [bytes]
  cases Base64.decodeTolerant? text <;> simp

/-- Bytes are read from a text exactly if it is their canonical text once the other alphabet is
    replaced and the padding filled in, that is, from the variants of the canonical text.  From any
    other text nothing is read, whichever of the faults it has.  The canonical text is in the
    format of base64. -/
theorem bytes_of_text (text : String) :
    (∀ bs, bytes (.string text) = .ok bs ↔
      Base64.filled (Base64.standardText text) = Base64.encode bs) ∧
    (∀ bs, bytes (.string text) = .ok bs ↔ Base64.IsVariant text.toList bs) ∧
    (bytes (.string text) = .error .invalidBase64 ↔
      ∀ bs, Base64.filled (Base64.standardText text) ≠ Base64.encode bs) ∧
    (Base64.Faulty text.toList → bytes (.string text) = .error .invalidBase64) ∧
    ∀ bs, ∃ digits padding, Base64.Formed (Base64.encode bs).toList bs digits padding := by
  have mended : ∀ bs, bytes (.string text) = .ok bs ↔
      Base64.filled (Base64.standardText text) = Base64.encode bs := fun bs =>
    bytes_eq_ok_iff.trans Base64.decodeTolerant?_eq_some_iff
  have variant : ∀ bs, bytes (.string text) = .ok bs ↔ Base64.IsVariant text.toList bs := fun bs => by
    rw [mended, Base64.filled_standardText_eq_iff, Base64.pad_eq_encodeChars_iff]
  refine ⟨mended, variant, ?_, ?_, ?_⟩
  · rw [bytes_eq_error_iff]
    exact forall_congr' fun bs => not_congr (mended bs)
  · intro fault
    exact bytes_eq_error_iff.2 fun bs hbs => fault.not_isVariant ((variant bs).1 hbs)
  · intro bs
    rw [Base64.encode, String.toList_ofList]
    exact Base64.exists_formed bs

end JsonForm

end Protobuf
