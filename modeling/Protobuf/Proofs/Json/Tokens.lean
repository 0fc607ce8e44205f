import Protobuf.Json.Token
import Protobuf.Proofs.Json.Grammar
import Protobuf.Proofs.Number.Numeral

/-! # The tokens of a text

A text that spells a value is cut into the tokens of the value, however its blanks stand and
its strings are written.

* `Json.tokens`: the tokens of a value.
* `JsonToken.next?_of_quoted`: a string is read in any of its ways.
* `JsonToken.readNumber_digits`: an integer of 64 bits is read.
* `JsonToken.Scans`: what a text is cut into.
* `JsonToken.ofText_of_padded`: the tokens of a text of a value.
-/

namespace Protobuf

mutual

def Json.tokens : Json → List JsonToken
  | .null => [.null]
  | .bool b => [.bool b]
  | .number n => [.number n]
  | .string s => [.string s]
  | .array [] => [.openArray, .closeArray]
  | .array (v :: rest) => .openArray :: (v.tokens ++ (moreItemTokens rest ++ [.closeArray]))
  | .object [] => [.openObject, .closeObject]
  | .object ((key, v) :: rest) =>
    .openObject :: .string key :: .colon :: (v.tokens ++ (moreMemberTokens rest ++ [.closeObject]))

def moreItemTokens : List Json → List JsonToken
  | [] => []
  | v :: rest => .comma :: (v.tokens ++ moreItemTokens rest)

def moreMemberTokens : List (String × Json) → List JsonToken
  | [] => []
  | (key, v) :: rest =>
    .comma :: .string key :: .colon :: (v.tokens ++ moreMemberTokens rest)

end

namespace JsonToken

open JsonText

/-! ## Strings -/

theorem hexDigit?_of_hexDigit {c : Char} {n : Nat} (h : HexDigit c n) :
    hexDigit? c = some n ∧ n < 16 := by
  have small : ∀ p ∈ "0123456789abcdef".toList.zipIdx, hexDigit? p.1 = some p.2 ∧ p.2 < 16 := by
    decide
  have large : ∀ p ∈ "0123456789ABCDEF".toList.zipIdx, hexDigit? p.1 = some p.2 ∧ p.2 < 16 := by
    decide
  rcases h with h | h
  · exact small (c, n) (List.mem_zipIdx_iff_getElem?.2 h)
  · exact large (c, n) (List.mem_zipIdx_iff_getElem?.2 h)

/-- Four digits are read as one unit. -/
theorem stringBody_of_codeUnit {digits : List Char} {n : Nat} (h : CodeUnit digits n)
    (rest : List Char) :
    stringBody ('\\' :: 'u' :: (digits ++ rest)) =
      consPiece (some (.unit n)) (stringBody rest) := by
  cases h with
  | @intro a b c d w x y z first second third fourth =>
    have hunit : hexUnit? a b c d = some (((w * 16 + x) * 16 + y) * 16 + z) := by
      simp only [hexUnit?, (hexDigit?_of_hexDigit first).1, (hexDigit?_of_hexDigit second).1,
        (hexDigit?_of_hexDigit third).1, (hexDigit?_of_hexDigit fourth).1]
      rfl
    simp only [List.cons_append, List.nil_append, stringBody, hunit, Option.map_some]

theorem stringBody_of_plain {c : Char} (visible : 0x20 ≤ c.toNat) (quote : c ≠ '"')
    (backslash : c ≠ '\\') (rest : List Char) :
    stringBody (c :: rest) = consPiece (some (.char c)) (stringBody rest) := by
  have hplain : ¬(c.toNat < 0x20 ∨ c = '\\') := by
    rintro (h | h)
    · omega
    · exact backslash h
  rw [stringBody, if_neg hplain] <;> simp_all

theorem stringBody_of_escape {letter c : Char} (h : (letter, c) ∈ escapes) (rest : List Char) :
    stringBody ('\\' :: letter :: rest) = consPiece (some (.char c)) (stringBody rest) := by
  have each : ∀ p ∈ escapes, p.1 ≠ 'u' ∧ escape? p.1 = some p.2 := by decide
  obtain ⟨hunit, hescape⟩ := each _ h
  rw [stringBody, hescape, Option.map_some]
  simp_all

/-- No character is half of a pair of units. -/
theorem toNat_valid (c : Char) : c.toNat < 0xD800 ∨ 0xDFFF < c.toNat ∧ c.toNat < 0x110000 :=
  c.valid

/-- A unit that is a character stands for itself. -/
theorem joinPieces_unit (c : Char) (more : List Piece) :
    joinPieces (.unit c.toNat :: more) = (joinPieces more).map (c :: ·) := by
  have hvalid := toNat_valid c
  have high : isHighSurrogate c.toNat = false := by
    simp only [isHighSurrogate, decide_eq_false_iff_not]
    omega
  have low : isLowSurrogate c.toNat = false := by
    simp only [isLowSurrogate, decide_eq_false_iff_not]
    omega
  rw [joinPieces.eq_def]
  simp only [high, low, Bool.false_eq_true, if_false, Char.ofNat_toNat]

/-- The two halves of a character join to it. -/
theorem joinPieces_pair {c : Char} (large : 0x10000 ≤ c.toNat) (more : List Piece) :
    joinPieces (.unit (0xD800 + (c.toNat - 0x10000) / 0x400) ::
        .unit (0xDC00 + (c.toNat - 0x10000) % 0x400) :: more) =
      (joinPieces more).map (c :: ·) := by
  have hvalid := toNat_valid c
  have hhigh : isHighSurrogate (0xD800 + (c.toNat - 0x10000) / 0x400) := by
    simp only [isHighSurrogate, decide_eq_true_eq]
    omega
  have hlow : isLowSurrogate (0xDC00 + (c.toNat - 0x10000) % 0x400) := by
    simp only [isLowSurrogate, decide_eq_true_eq]
    omega
  have hcode : 0x10000 + (0xD800 + (c.toNat - 0x10000) / 0x400 - 0xD800) * 0x400 +
      (0xDC00 + (c.toNat - 0x10000) % 0x400 - 0xDC00) = c.toNat := by
    omega
  simp only [joinPieces, hhigh, hlow, if_true, hcode, Char.ofNat_toNat]

/-- The pieces that a character is read as. -/
theorem exists_pieces {front : List Char} {c : Char} (h : Character front c) :
    ∃ ps : List Piece,
      (∀ {rest tail : List Char} {more : List Piece}, stringBody rest = some (more, tail) →
        stringBody (front ++ rest) = some (ps ++ more, tail)) ∧
      ∀ more, joinPieces (ps ++ more) = (joinPieces more).map (c :: ·) := by
  cases h with
  | plain visible quote backslash =>
    refine ⟨[.char c], fun {rest tail more} hrest => ?_, fun more => rfl⟩
    rw [List.singleton_append, stringBody_of_plain visible quote backslash, hrest]
    rfl
  | short h =>
    refine ⟨[.char c], fun {rest tail more} hrest => ?_, fun more => rfl⟩
    rw [List.cons_append, List.singleton_append, stringBody_of_escape h, hrest]
    rfl
  | unit h =>
    refine ⟨[.unit c.toNat], fun {rest tail more} hrest => ?_, joinPieces_unit c⟩
    rw [List.cons_append, List.cons_append, stringBody_of_codeUnit h, hrest]
    rfl
  | pair large first second =>
    refine ⟨[.unit (0xD800 + (c.toNat - 0x10000) / 0x400),
      .unit (0xDC00 + (c.toNat - 0x10000) % 0x400)], fun {rest tail more} hrest => ?_,
      joinPieces_pair large⟩
    simp only [List.cons_append, List.append_assoc, stringBody_of_codeUnit first,
      stringBody_of_codeUnit second, hrest]
    rfl

theorem exists_stringBody {body cs : List Char} (h : Characters body cs) :
    ∃ ps : List Piece, (∀ rest, stringBody (body ++ '"' :: rest) = some (ps, rest)) ∧
      joinPieces ps = some cs := by
  induction h with
  | nil => exact ⟨[], fun rest => by rw [List.nil_append, stringBody], rfl⟩
  | cons first _ ih =>
    obtain ⟨ps, hbody, hjoin⟩ := ih
    obtain ⟨front, hfront, hpieces⟩ := exists_pieces first
    refine ⟨front ++ ps, fun rest => ?_, ?_⟩
    · rw [List.append_assoc]
      exact hfront (hbody rest)
    · rw [hpieces, hjoin]
      rfl

/-- A string is read in any of its ways. -/
theorem next?_of_quoted {cs : List Char} {s : String} (h : Quoted cs s) :
    ∃ body, cs = '"' :: body ∧ ∀ rest, next? '"' (body ++ rest) = some (string s, rest) := by
  cases h with
  | @intro body s h =>
    obtain ⟨ps, hbody, hjoin⟩ := exists_stringBody h
    refine ⟨_, rfl, fun rest => ?_⟩
    have hread := hbody rest
    simp only [next?, punctuation?, if_true, List.append_assoc, List.singleton_append, hread, hjoin,
      Option.bind_eq_bind, Option.bind_some, String.ofList_toList]
    rfl

/-! ## Numbers -/

def Ends (cs : List Char) : Prop :=
  ∀ c ∈ cs.head?, c.isDigit = false ∧ c ≠ '.' ∧ c ≠ 'e' ∧ c ≠ 'E'

/-- Digits of a number that start with a zero are those of zero. -/
theorem digits_eq_zero_cons {n : Nat} {ds : List Char} (h : Decimal.digits n = '0' :: ds) :
    ds = [] := by
  by_contra hne
  have hdigits : ∀ c ∈ ds, c.isDigit := fun c hc =>
    Literal.isDigit_of_mem_digits (n := n) (by rw [h]; exact List.mem_cons_of_mem _ hc)
  have hvalue : Literal.natOfDigits ds = n := by
    rw [← Literal.natOfDigits_digits n, h]
    rfl
  have hlt := Literal.natOfDigits_lt hdigits
  rw [hvalue, ← Nat.length_toDigits_le_iff (by decide) (List.length_pos_iff.2 hne)] at hlt
  have hlength : (Decimal.digits n).length = ds.length + 1 := by rw [h, List.length_cons]
  rw [Decimal.digits] at hlength
  omega

theorem wholePart_digits {n : Nat} {rest : List Char} (ends : Ends rest) :
    wholePart (Decimal.digits n ++ rest) = some (Decimal.digits n, rest) := by
  have hhead : ∀ c ∈ rest.head?, c.isDigit = false := fun c hc => (ends c hc).1
  have htake := (DigitRun.ofNat n).takeWhile_append hhead
  have hdrop := (DigitRun.ofNat n).dropWhile_append hhead
  have hne := Literal.digits_ne_nil n
  rw [wholePart.eq_def]
  split
  · rename_i tail heq
    cases hdigits : Decimal.digits n with
    | nil => exact absurd hdigits hne
    | cons d ds =>
      rw [hdigits, List.cons_append] at heq
      obtain ⟨rfl, rfl⟩ := List.cons.inj heq
      rw [digits_eq_zero_cons hdigits, List.nil_append]
  · rw [DigitRun.ofNat] at htake hdrop
    simp only [htake, hdrop, hne, if_false]

theorem le_ofDigitChars (ds : List Char) (n : Nat) : n ≤ Nat.ofDigitChars 10 ds n := by
  induction ds generalizing n with
  | nil => exact Nat.le_refl n
  | cons c ds ih =>
    rw [Nat.ofDigitChars_cons]
    have hrest := ih (10 * n + (c.toNat - '0'.toNat))
    omega

/-- A number that fits 64 bits is read to its last digit. -/
theorem read_of_lt {n : Nat} {ds : List Char} (h : Nat.ofDigitChars 10 ds n < 2 ^ 64) :
    Significand.read n ds = (Nat.ofDigitChars 10 ds n, 0) := by
  induction ds generalizing n with
  | nil => rfl
  | cons c ds ih =>
    rw [Nat.ofDigitChars_cons] at h ⊢
    -- Digits that follow do not make a number smaller.
    have hnext : 10 * n + Literal.digitValue c < 0x1_0000_0000_0000_0000 :=
      Nat.lt_of_le_of_lt (le_ofDigitChars ds _) h
    simp only [Significand.read, if_pos hnext]
    exact ih h

/-- An integer of 64 bits is read whole. -/
theorem readNumber_digits {negative : Bool} {n : Nat} {rest : List Char} (ends : Ends rest)
    (fits : n < 2 ^ 64) :
    readNumber negative (Decimal.digits n ++ rest) = some (integerValue negative n, rest) := by
  have hfraction : fractionPart rest = some ([], rest) := by
    rw [fractionPart.eq_def]
    split
    · exact absurd rfl (ends '.' (by simp)).2.1
    · rfl
  have hexponent : exponentPart rest = some (none, rest) := by
    cases rest with
    | nil => rfl
    | cons c rest =>
      obtain ⟨-, -, hsmall, hlarge⟩ := ends c (by simp)
      rw [exponentPart, if_neg (by simp [hsmall, hlarge])]
  have hread : Significand.read 0 (Decimal.digits n) = (n, 0) := by
    have hvalue := Literal.natOfDigits_digits n
    rw [Literal.natOfDigits_eq] at hvalue
    rw [read_of_lt (hvalue.trans_lt fits), hvalue]
  simp only [readNumber, wholePart_digits ends, hfraction, hexponent, Option.bind_eq_bind,
    Option.bind_some, hread]
  rfl

theorem integerValue_of_range (negative : Bool) (n : Nat) (sign : negative → n ≠ 0)
    (low : -2 ^ 63 ≤ Literal.signed negative n) :
    integerValue negative n = .integer (Literal.signed negative n) := by
  rw [integerValue, if_pos]
  exact ⟨fun h => sign h.1 h.2, by omega⟩

theorem isBlank_of_isDigit {c : Char} (h : c.isDigit) : isBlank c = false := by
  rw [isBlank, decide_eq_false_iff_not]
  rintro (rfl | rfl | rfl | rfl) <;> exact absurd h (by decide)

theorem next?_of_isDigit {c : Char} (h : c.isDigit) (rest : List Char) :
    next? c rest = (readNumber false (c :: rest)).map fun r => (number r.1, r.2) := by
  have hother : punctuation? c = none ∧ c ≠ '"' ∧ c ≠ '-' := by
    refine ⟨?_, ?_, ?_⟩
    · rw [punctuation?.eq_def]
      split <;> first | rfl | exact absurd h (by decide)
    · rintro rfl
      exact absurd h (by decide)
    · rintro rfl
      exact absurd h (by decide)
  obtain ⟨hpunctuation, hquote, hminus⟩ := hother
  simp only [next?, hpunctuation, hquote, hminus, h, if_false, if_true]
  cases readNumber false (c :: rest) <;> rfl

/-- The first character of an integer tells how it is read. -/
theorem next?_of_integer {n : Int} (low : -2 ^ 63 ≤ n) (high : n < 2 ^ 64) :
    ∃ c cs, (toString n).toList = c :: cs ∧ isBlank c = false ∧
      ∀ rest, Ends rest → next? c (cs ++ rest) = some (number (.integer n), rest) := by
  cases n with
  | ofNat n =>
    have htext : (toString (Int.ofNat n)).toList = Decimal.digits n := Nat.toList_repr
    obtain ⟨c, cs, hcs⟩ := List.exists_cons_of_ne_nil (Literal.digits_ne_nil n)
    have hdigit : c.isDigit := Literal.isDigit_of_mem_digits (n := n) (by rw [hcs]; simp)
    refine ⟨c, cs, htext.trans hcs, ?_, fun rest ends => ?_⟩
    · exact isBlank_of_isDigit hdigit
    · have hread := @readNumber_digits false n rest ends (Int.ofNat_lt.1 high)
      rw [hcs, List.cons_append, integerValue_of_range false n (by simp) low] at hread
      rw [next?_of_isDigit hdigit, hread]
      rfl
  | negSucc n =>
    have hsigned := Literal.signed_true_succ n
    refine ⟨'-', _, Literal.toList_toString_negSucc n, rfl, fun rest ends => ?_⟩
    have hread := @readNumber_digits true (n + 1) rest ends (by omega)
    rw [integerValue_of_range true (n + 1) (by simp) (by rw [hsigned]; exact low), hsigned] at hread
    simp only [next?, punctuation?, hread]
    rfl

/-! ## Texts -/

def Scans (cs : List Char) (ts : List JsonToken) : Prop :=
  ∀ left, cs.length ≤ left → scan left cs = ts

variable {cs rest : List Char} {ts : List JsonToken}

theorem scans_nil : Scans [] [] := fun left _ => by rw [scan]

theorem Scans.blank_append (h : Scans rest ts) (blank : Blank cs) : Scans (cs ++ rest) ts := by
  induction cs with
  | nil => exact h
  | cons c cs ih =>
    obtain ⟨hc, hcs⟩ := List.forall_mem_cons.1 blank
    have hblank : isBlank c := by simpa [isBlank] using hc
    intro left hleft
    rw [List.cons_append, List.length_cons] at hleft
    obtain ⟨left, rfl⟩ : ∃ l, left = l + 1 := ⟨left - 1, by omega⟩
    rw [List.cons_append, scan, if_pos hblank]
    exact ih hcs left (by omega)

/-- One token in front. -/
theorem Scans.token_append {c : Char} {t : JsonToken} (h : Scans rest ts)
    (visible : isBlank c = false) (token : next? c (cs ++ rest) = some (t, rest)) :
    Scans (c :: (cs ++ rest)) (t :: ts) := by
  intro left hleft
  rw [List.length_cons, List.length_append] at hleft
  obtain ⟨left, rfl⟩ : ∃ l, left = l + 1 := ⟨left - 1, by omega⟩
  rw [scan, if_neg (by simp [visible]), token]
  simp only [h left (by omega)]

theorem Scans.punctuation_cons {c : Char} {t : JsonToken} (h : Scans rest ts)
    (token : punctuation? c = some t) (visible : isBlank c = false) :
    Scans (c :: rest) (t :: ts) := by
  have hnext : next? c ([] ++ rest) = some (t, rest) := by
    rw [next?, token, List.nil_append]
  exact h.token_append visible hnext

theorem Scans.quoted_append {s : String} (h : Scans rest ts) (quoted : Quoted cs s) :
    Scans (cs ++ rest) (.string s :: ts) := by
  obtain ⟨body, rfl, hnext⟩ := next?_of_quoted quoted
  exact h.token_append rfl (hnext rest)

theorem Scans.integer_append {n : Int} (h : Scans rest ts) (ends : Ends rest) (low : -2 ^ 63 ≤ n)
    (high : n < 2 ^ 64) : Scans ((toString n).toList ++ rest) (.number (.integer n) :: ts) := by
  obtain ⟨c, cs, htext, hvisible, hnext⟩ := next?_of_integer low high
  rw [htext, List.cons_append]
  exact h.token_append hvisible (hnext rest ends)

theorem ends_cons {c : Char} (h : c.isDigit = false ∧ c ≠ '.' ∧ c ≠ 'e' ∧ c ≠ 'E') :
    Ends (c :: cs) := by
  intro d hd
  cases hd
  exact h

theorem Ends.blank_append (h : Ends rest) (blank : Blank cs) : Ends (cs ++ rest) := by
  cases cs with
  | nil => exact h
  | cons c cs =>
    refine ends_cons ?_
    rcases blank c (by simp) with rfl | rfl | rfl | rfl <;> decide

theorem ends_moreItems {items : List Json} (h : MoreItems cs items) (ends : Ends rest) :
    Ends (cs ++ rest) := by
  cases h with
  | nil => exact ends
  | cons => exact ends_cons (by decide)

theorem ends_moreMembers {members : List (String × Json)} (h : MoreMembers cs members)
    (ends : Ends rest) : Ends (cs ++ rest) := by
  cases h with
  | nil => exact ends
  | cons => exact ends_cons (by decide)

/-! ## Values -/

mutual

/-- A text of a value is cut into the tokens of the value, and then what stands behind it. -/
theorem scans_spelled {cs : List Char} {v : Json} (h : Spelled cs v) {rest : List Char}
    {ts : List JsonToken} (ends : Ends rest) (hs : Scans rest ts) :
    Scans (cs ++ rest) (v.tokens ++ ts) := by
  match h with
  | .null =>
    have hnext : next? 'n' (['u', 'l', 'l'] ++ rest) = some (.null, rest) := rfl
    exact hs.token_append rfl hnext
  | .true =>
    have hnext : next? 't' (['r', 'u', 'e'] ++ rest) = some (.bool true, rest) := rfl
    exact hs.token_append rfl hnext
  | .false =>
    have hnext : next? 'f' (['a', 'l', 's', 'e'] ++ rest) = some (.bool false, rest) := rfl
    exact hs.token_append rfl hnext
  | .integer low high => exact hs.integer_append ends low high
  | .string quoted => exact hs.quoted_append quoted
  | .emptyArray blank =>
    have hclosed := hs.punctuation_cons (c := ']') rfl rfl
    rw [List.cons_append, List.append_assoc]
    exact (hclosed.blank_append blank).punctuation_cons rfl rfl
  | .array first others =>
    -- The parts are put in front one by one, the last one first.
    have hclosed := hs.punctuation_cons (c := ']') rfl rfl
    have hend : Ends (']' :: rest) := ends_cons (by decide)
    have hothers := scans_moreItems others hend hclosed
    have hitems := scans_padded first (ends_moreItems others hend) hothers
    rw [List.cons_append, List.append_assoc, List.append_assoc, List.singleton_append]
    simpa [Json.tokens] using hitems.punctuation_cons (c := '[') rfl rfl
  | .emptyObject blank =>
    have hclosed := hs.punctuation_cons (c := '\x7d') rfl rfl
    rw [List.cons_append, List.append_assoc]
    exact (hclosed.blank_append blank).punctuation_cons rfl rfl
  | .object first others =>
    have hclosed := hs.punctuation_cons (c := '\x7d') rfl rfl
    have hend : Ends ('\x7d' :: rest) := ends_cons (by decide)
    have hothers := scans_moreMembers others hend hclosed
    have hmembers := scans_member first (ends_moreMembers others hend) hothers
    rw [List.cons_append, List.append_assoc, List.append_assoc, List.singleton_append]
    simpa [Json.tokens] using hmembers.punctuation_cons (c := '\x7b') rfl rfl

theorem scans_padded {cs : List Char} {v : Json} (h : Padded cs v) {rest : List Char}
    {ts : List JsonToken} (ends : Ends rest) (hs : Scans rest ts) :
    Scans (cs ++ rest) (v.tokens ++ ts) := by
  match h with
  | .intro front spelled back =>
    rw [List.append_assoc, List.append_assoc]
    exact (scans_spelled spelled (ends.blank_append back) (hs.blank_append back)).blank_append front

theorem scans_moreItems {cs : List Char} {items : List Json} (h : MoreItems cs items)
    {rest : List Char} {ts : List JsonToken} (ends : Ends rest) (hs : Scans rest ts) :
    Scans (cs ++ rest) (moreItemTokens items ++ ts) := by
  match h with
  | .nil => exact hs
  | .cons first others =>
    have hothers := scans_moreItems others ends hs
    have hitems := scans_padded first (ends_moreItems others ends) hothers
    rw [List.cons_append, List.append_assoc, moreItemTokens, List.cons_append, List.append_assoc]
    exact hitems.punctuation_cons rfl rfl

theorem scans_member {cs : List Char} {e : String × Json} (h : Member cs e) {rest : List Char}
    {ts : List JsonToken} (ends : Ends rest) (hs : Scans rest ts) :
    Scans (cs ++ rest) (.string e.1 :: .colon :: (e.2.tokens ++ ts)) := by
  match h with
  | .intro front named back value =>
    have hvalue := (scans_padded value ends hs).punctuation_cons (c := ':') rfl rfl
    rw [List.append_assoc, List.append_assoc, List.append_assoc, List.cons_append]
    exact ((hvalue.blank_append back).quoted_append named).blank_append front

theorem scans_moreMembers {cs : List Char} {members : List (String × Json)}
    (h : MoreMembers cs members) {rest : List Char} {ts : List JsonToken} (ends : Ends rest)
    (hs : Scans rest ts) : Scans (cs ++ rest) (moreMemberTokens members ++ ts) := by
  match h with
  | .nil => exact hs
  | .cons first others =>
    have hothers := scans_moreMembers others ends hs
    have hmembers := scans_member first (ends_moreMembers others ends) hothers
    rw [List.cons_append, List.append_assoc, moreMemberTokens]
    simpa using hmembers.punctuation_cons (c := ',') rfl rfl

end

/-- A document is cut into the tokens of its value. -/
theorem ofText_of_padded {text : String} {v : Json} (h : Padded text.toList v) :
    ofText text = v.tokens := by
  have hends : Ends [] := by simp [Ends]
  have hscans := scans_padded h hends scans_nil
  rw [List.append_nil, List.append_nil] at hscans
  exact hscans _ (Nat.le_refl _)

end JsonToken

end Protobuf
