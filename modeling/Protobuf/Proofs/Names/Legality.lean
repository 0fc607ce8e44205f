import Protobuf.Proofs.Names.Wishes

/-! # Usable identifiers

A name of a schema gives an identifier that code may use, unless it is a lone underscore or,
where its words are joined, has nothing but underscores in it.

* `isSchemaName`: the names that a schema may have.
* `Ident.IsUsable`: identifiers that stand for something wherever they are written.
* `Ident.IsUsable.of_yields`: what a scope makes of a usable identifier is usable.
* `Ident.usable_iff`: which names give usable identifiers.
-/

namespace Protobuf

def isNameChar (c : Char) : Bool := c.isAlphanum || c = '_'

/-- Whether a text is a name as schemas have them: an ASCII letter or an underscore, then
    letters, digits and underscores. -/
def isSchemaName (name : String) : Bool :=
  match name.toList with
  | [] => false
  | first :: rest => (first.isAlpha || first = '_') && rest.all isNameChar

section

variable {c first : Char} {cs rest : List Char} {name word : String}

/-- What holds of the first 128 characters, one by one, holds of those of ASCII. -/
theorem forall_ascii {P : Char → Prop} (h : ∀ n < 128, P (Char.ofNat n)) (hc : c.toNat < 128) : P c :=
  Char.ofNat_toNat c ▸ h c.toNat hc

theorem toNat_lt_of_isNameChar (h : isNameChar c) : c.toNat < 128 := by
  have hle : ∀ d : Char, c.val ≤ d.val → c.toNat ≤ d.toNat := fun d hd => UInt32.le_iff_toNat_le.1 hd
  have hupper : c.isUpper → c.toNat < 128 := fun h =>
    (hle 'Z' (of_decide_eq_true h).2).trans_lt (by decide)
  have hlower : c.isLower → c.toNat < 128 := fun h =>
    (hle 'z' (of_decide_eq_true (Bool.and_eq_true_iff.1 h).2)).trans_lt (by decide)
  have hdigit : c.isDigit → c.toNat < 128 := fun h =>
    (hle '9' (of_decide_eq_true (Bool.and_eq_true_iff.1 h).2)).trans_lt (by decide)
  rw [isNameChar, Bool.or_eq_true, decide_eq_true_eq] at h
  rcases h with h | rfl
  · rcases Bool.or_eq_true_iff.1 h with h | h
    · exact (Bool.or_eq_true_iff.1 h).elim hupper hlower
    · exact hdigit h
  · decide

/-- What holds of the characters of names, one by one. -/
theorem forall_nameChar {P : Char → Prop} (h : ∀ n < 128, isNameChar (Char.ofNat n) → P (Char.ofNat n))
    (hc : isNameChar c) : P c :=
  forall_ascii (P := fun c => isNameChar c → P c) h (toNat_lt_of_isNameChar hc) hc

theorem isSchemaName_cons (h : name.toList = first :: rest) :
    isSchemaName name ↔ first.isDigit = false ∧ ∀ c ∈ name.toList, isNameChar c := by
  have hfirst : isNameChar first → ((first.isAlpha || first = '_') = true ↔ first.isDigit = false) :=
    forall_nameChar (P := fun c => (c.isAlpha || c = '_') = true ↔ c.isDigit = false)
      (by decide +kernel)
  have hletter : (first.isAlpha || first = '_') = true → isNameChar first := by
    rw [isNameChar, Bool.or_eq_true, Bool.or_eq_true]
    exact Or.imp_left fun h => Bool.or_eq_true_iff.2 (.inl h)
  rw [isSchemaName, h, List.forall_mem_cons, Bool.and_eq_true, List.all_eq_true]
  constructor
  · rintro ⟨hf, hrest⟩
    exact ⟨(hfirst (hletter hf)).1 hf, hletter hf, hrest⟩
  · rintro ⟨hf, hname, hrest⟩
    exact ⟨(hfirst hname).2 hf, hrest⟩

theorem exists_cons_of_isSchemaName (h : isSchemaName name) :
    ∃ first rest, name.toList = first :: rest := by
  cases hname : name.toList with
  | nil =>
    rw [isSchemaName, hname] at h
    cases h
  | cons first rest => exact ⟨first, rest, rfl⟩

theorem isNameChar_of_mem (h : isSchemaName name) (hc : c ∈ name.toList) : isNameChar c := by
  obtain ⟨first, rest, hcons⟩ := exists_cons_of_isSchemaName h
  exact ((isSchemaName_cons hcons).1 h).2 c hc

theorem isIdentifier_of_isSchemaName (h : isSchemaName name) : isIdentifier name := by
  obtain ⟨first, rest, hcons⟩ := exists_cons_of_isSchemaName h
  obtain ⟨hfirst, hchars⟩ := (isSchemaName_cons hcons).1 h
  rw [hcons, List.forall_mem_cons] at hchars
  have hstart : isNameChar first → first.isDigit = false → isIdentifierStart first :=
    forall_nameChar (P := fun c => c.isDigit = false → isIdentifierStart c) (by decide +kernel)
  rw [isIdentifier, hcons, Bool.and_eq_true, List.all_eq_true]
  exact ⟨hstart hchars.1 hfirst, fun c hc =>
    forall_nameChar (P := fun c => isIdentifierPart c) (by decide +kernel) (hchars.2 c hc)⟩

/-! ## Usable identifiers -/

/-- An identifier that stands for something wherever it is written: a word with the shape of
    one, which is no lone underscore, and which is in raw form, and may be, if it is reserved. -/
structure Ident.IsUsable (i : Ident) : Prop where
  identifier : isIdentifier i.word
  named : i.word ≠ "_"
  keyword : i.word ∈ Ident.reserved → i.raw ∧ i.word ∉ Ident.places

namespace Ident

instance : DecidablePred IsUsable := fun i =>
  decidable_of_iff (isIdentifier i.word ∧ i.word ≠ "_" ∧ (i.word ∈ reserved → i.raw ∧ i.word ∉ places))
    ⟨fun ⟨h, h', h''⟩ => ⟨h, h', h''⟩, fun h => ⟨h.identifier, h.named, h.keyword⟩⟩

/-- A word without a mark of raw form is read as it is. -/
theorem ofText_of_not_mem (h : '#' ∉ word.toList) : ofText word = ⟨word, false⟩ := by
  unfold ofText
  split
  · rename_i rest hcons
    exact absurd (hcons ▸ by simp) h
  · rfl

theorem not_mem_of_isIdentifier (h : isIdentifier word) : '#' ∉ word.toList := by
  unfold isIdentifier at h
  split at h
  · cases h
  · rename_i first rest hcons
    rw [Bool.and_eq_true, List.all_eq_true] at h
    rw [hcons, List.mem_cons, not_or]
    refine ⟨?_, fun hmem => absurd (h.2 _ hmem) (by decide)⟩
    rintro rfl
    exact absurd h.1 (by decide)

theorem usable_ofText (identifier : isIdentifier word) (named : word ≠ "_")
    (unreserved : word ∉ reserved) : (ofText word).IsUsable := by
  rw [ofText_of_not_mem (not_mem_of_isIdentifier identifier)]
  exact ⟨identifier, named, fun h => absurd h unreserved⟩

theorem places_subset_reserved : ∀ word ∈ places, word ∈ reserved := by decide

/-- A usable identifier can be written. -/
theorem IsUsable.checked {i : Ident} (h : i.IsUsable) : i.checked = .ok i := by
  rw [Ident.checked, if_pos]
  rw [h.identifier, Bool.true_and, Bool.not_eq_true', Bool.and_eq_false_imp]
  intro _
  rw [← Bool.not_eq_true, List.contains_iff_mem, List.mem_cons, not_or]
  exact ⟨h.named, fun hplace => (h.keyword (places_subset_reserved _ hplace)).2 hplace⟩

/-- A usable identifier is no stray word. -/
theorem IsUsable.not_stray {i : Ident} (h : i.IsUsable) : i.text ∉ Code.strayWords := by
  rw [Code.strayWords, List.mem_cons, List.mem_singleton, Ident.text]
  cases hraw : i.raw with
  | false =>
    have htry : i.word ≠ "try" := fun heq => by
      have hreserved := (h.keyword (by rw [heq]; decide)).1
      rw [hraw] at hreserved
      cases hreserved
    simp [h.named, htry]
  | true => simp [← String.toList_inj]

theorem isIdentifier_append {suffix : String} (h : isIdentifier word)
    (parts : suffix.toList.all isIdentifierPart) : isIdentifier (word ++ suffix) := by
  unfold isIdentifier at h ⊢
  rw [String.toList_append]
  cases hword : word.toList with
  | nil =>
    rw [hword] at h
    cases h
  | cons first rest =>
    simp only [hword, Bool.and_eq_true] at h
    simp only [List.cons_append, List.all_append, Bool.and_eq_true]
    exact ⟨h.1, h.2, parts⟩

theorem length_pos_of_isIdentifier (h : isIdentifier word) : 0 < word.length := by
  rw [Nat.pos_iff_ne_zero, ne_eq, String.length_eq_zero_iff]
  rintro rfl
  cases h

/-- With a suffix that no reserved word has, a usable identifier is usable. -/
theorem IsUsable.append {i : Ident} {suffix : String} (h : i.IsUsable) (nonempty : suffix ≠ "")
    (parts : suffix.toList.all isIdentifierPart)
    (fresh : ∀ word ∈ reserved, ¬suffix.toList <:+ word.toList) :
    (ofText (i.word ++ suffix)).IsUsable := by
  refine usable_ofText (isIdentifier_append h.identifier parts) (fun heq => ?_) fun hmem => ?_
  · have hlength := congrArg (·.length) heq
    have hone : "_".length = 1 := rfl
    have hpos := length_pos_of_isIdentifier h.identifier
    have hsuffix := Nat.pos_of_ne_zero (mt String.length_eq_zero_iff.1 nonempty)
    simp only [String.length_append, hone] at hlength
    omega
  · exact fresh _ hmem (String.toList_append ▸ List.suffix_append ..)

/-- What a scope makes of a usable identifier is usable. -/
theorem IsUsable.of_yields {i j : Ident} (h : i.IsUsable) (hj : i.Yields j) : j.IsUsable := by
  induction hj with
  | refl => exact h
  | longer _ ih => exact ih (h.append (by decide) (by decide) (by decide))

theorem IsUsable.partial {i : Ident} (h : i.IsUsable) : (ofText (i.word ++ "Partial")).IsUsable :=
  h.append (by decide) (by decide) (by decide +kernel)

/-! ## Which names give usable identifiers -/

theorem isIdentifier_unreserved (h : isSchemaName name) : isIdentifier (unreserved name) := by
  rw [unreserved]
  split
  · exact isIdentifier_append (isIdentifier_of_isSchemaName h) (by decide)
  · exact isIdentifier_of_isSchemaName h

theorem ofText_unreserved (h : isSchemaName name) :
    ofText (unreserved name) = ⟨unreserved name, false⟩ :=
  ofText_of_not_mem (not_mem_of_isIdentifier (isIdentifier_unreserved h))

/-- A name that is kept from being reserved is usable unless it is an underscore. -/
theorem usable_unreserved (h : isSchemaName name) : (ofText (unreserved name)).IsUsable ↔ name ≠ "_" := by
  have hidentifier := isIdentifier_unreserved h
  rw [unreserved] at hidentifier ⊢
  split
  · rename_i hmem
    rw [if_pos hmem] at hidentifier
    have hlonger : ∀ word ∈ reserved, word ≠ "_" ∧ word ++ "_" ≠ "_" ∧ word ++ "_" ∉ reserved := by
      decide
    obtain ⟨hself, hnamed, hfresh⟩ := hlonger name (List.contains_iff_mem.1 hmem)
    exact iff_of_true (usable_ofText hidentifier hnamed hfresh) hself
  · rename_i hmem
    refine ⟨?_, fun hname => usable_ofText (isIdentifier_of_isSchemaName h) hname ?_⟩
    · rintro husable rfl
      exact absurd husable (by decide)
    · exact mt List.contains_iff_mem.2 hmem

/-! ### Types -/

theorem isSchemaName_undigited (h : ∀ c ∈ name.toList, isNameChar c) (nonempty : name ≠ "") :
    isSchemaName (undigited name) := by
  have hdigit : ∀ c : Char, ('0' ≤ c && c ≤ '9') = c.isDigit := fun _ => rfl
  unfold undigited
  cases hname : name.toList with
  | nil => exact absurd (String.toList_eq_nil_iff.1 hname) nonempty
  | cons first rest =>
    simp only [hdigit]
    cases hfirst : first.isDigit with
    | true =>
      have hcons : ("_" ++ name).toList = '_' :: name.toList := by simp
      rw [if_pos rfl, isSchemaName_cons hcons, hcons, List.forall_mem_cons]
      exact ⟨by decide, by decide, h⟩
    | false =>
      rw [if_neg Bool.false_ne_true, isSchemaName_cons hname]
      exact ⟨hfirst, h⟩

theorem undigited_eq_underscore : undigited name = "_" ↔ name = "_" := by
  constructor
  · intro h
    unfold undigited at h
    split at h
    · rename_i first rest hname
      split at h
      · -- What is behind the underscore that was put in front is not empty.
        have hchars := congrArg String.toList h
        simp [hname] at hchars
      · exact h
    · exact h
  · rintro rfl
    decide

/-- The name of a type gives a usable identifier unless it is empty or an underscore. -/
theorem usable_ofType (h : ∀ c ∈ name.toList, isNameChar c) :
    (ofType name).IsUsable ↔ name ≠ "" ∧ name ≠ "_" := by
  by_cases hempty : name = ""
  · subst hempty
    decide
  · rw [ofType, typeWord, usable_unreserved (isSchemaName_undigited h hempty), ne_eq,
      undigited_eq_underscore]
    exact (and_iff_right hempty).symm

/-! ### Modules and fields -/

theorem isNameChar_snakeChars {before : Option Char} (h : ∀ c ∈ cs, isNameChar c) :
    ∀ c ∈ snakeChars before cs, isNameChar c := by
  induction cs generalizing before with
  | nil => simp [snakeChars]
  | cons c cs ih =>
    rw [List.forall_mem_cons] at h
    have hlower : isNameChar c.toLower :=
      forall_nameChar (P := fun c => isNameChar c.toLower) (by decide +kernel) h.1
    have hrest : ∀ d ∈ snakeChars (some c) cs, isNameChar d := ih h.2
    rw [snakeChars]
    split
    · split
      · exact List.forall_mem_cons.2 ⟨by decide, List.forall_mem_cons.2 ⟨hlower, hrest⟩⟩
      · exact List.forall_mem_cons.2 ⟨hlower, hrest⟩
    · exact List.forall_mem_cons.2 ⟨h.1, hrest⟩

/-- No underscore goes before the first character. -/
theorem snakeChars_none (c : Char) (cs : List Char) :
    snakeChars none (c :: cs) = (if isCapital c then c.toLower else c) :: snakeChars (some c) cs := by
  rw [snakeChars, beginsWord]
  split <;> rfl

theorem snakeChars_eq_nil {before : Option Char} (h : snakeChars before cs = []) : cs = [] := by
  cases cs with
  | nil => rfl
  | cons c cs =>
    rw [snakeChars] at h
    split at h
    · split at h <;> cases h
    · cases h

theorem isSchemaName_snakeCase (h : isSchemaName name) : isSchemaName (snakeCase name) := by
  obtain ⟨first, rest, hcons⟩ := exists_cons_of_isSchemaName h
  obtain ⟨hfirst, hchars⟩ := (isSchemaName_cons hcons).1 h
  have hsnake : (snakeCase name).toList = snakeChars none name.toList := String.toList_ofList
  have hsnakeCons := hsnake.trans (hcons ▸ snakeChars_none first rest)
  have hlower : first.isDigit = false →
      (if isCapital first then first.toLower else first).isDigit = false :=
    forall_nameChar (P := fun c => c.isDigit = false →
      (if isCapital c then c.toLower else c).isDigit = false) (by decide +kernel)
      (hchars first (by simp [hcons]))
  rw [isSchemaName_cons hsnakeCons, hsnake]
  exact ⟨hlower hfirst, isNameChar_snakeChars hchars⟩

theorem snakeCase_eq_underscore (h : isSchemaName name) : snakeCase name = "_" ↔ name = "_" := by
  constructor
  · intro heq
    obtain ⟨first, rest, hcons⟩ := exists_cons_of_isSchemaName h
    have hchars : snakeChars none name.toList = ['_'] := by
      rw [← String.toList_ofList (l := snakeChars none name.toList), ← snakeCase, heq]
      rfl
    rw [hcons, snakeChars_none, List.cons.injEq] at hchars
    have hfirst : (if isCapital first then first.toLower else first) = '_' → first = '_' :=
      forall_nameChar (P := fun c => (if isCapital c then c.toLower else c) = '_' → c = '_')
        (by decide +kernel) (isNameChar_of_mem h (by simp [hcons]))
    rw [← String.toList_inj, hcons, hfirst hchars.1, snakeChars_eq_nil hchars.2]
    rfl
  · rintro rfl
    decide +kernel

theorem usable_ofModule (h : isSchemaName name) : (ofModule name).IsUsable ↔ name ≠ "_" := by
  rw [ofModule, moduleWord, usable_unreserved (isSchemaName_snakeCase h), ne_eq,
    snakeCase_eq_underscore h]

theorem usable_ofField (h : isSchemaName name) : (ofField name).IsUsable ↔ name ≠ "_" := by
  rw [ne_eq, ← snakeCase_eq_underscore h, ofField, fieldWord]
  have hsnake := isSchemaName_snakeCase h
  generalize snakeCase name = snake at hsnake
  simp only [List.contains_iff_mem]
  split
  · rename_i hplace
    have hlonger : unreserved snake = snake ++ "_" :=
      if_pos (List.contains_iff_mem.2 (places_subset_reserved snake hplace))
    exact hlonger ▸ usable_unreserved hsnake
  · rename_i hplace
    split
    · rename_i hreserved
      have hraw : ofText ("r#" ++ snake) = ⟨snake, true⟩ := by
        rw [ofText, String.toList_append]
        simp
      have hnamed : snake ≠ "_" := fun heq => absurd (heq ▸ hreserved) (by decide)
      rw [hraw]
      exact iff_of_true ⟨isIdentifier_of_isSchemaName hsnake, hnamed, fun _ => ⟨rfl, hplace⟩⟩ hnamed
    · rename_i hreserved
      have hsame : unreserved snake = snake := if_neg (mt List.contains_iff_mem.1 hreserved)
      have husable := usable_unreserved hsnake
      rwa [hsame] at husable

/-! ### Joined words -/

theorem capitalForm_of_isNameChar (h : isNameChar c) : capitalForm c = [c.toUpper] :=
  if_pos (toNat_lt_of_isNameChar h)

/-- What joined words are made of, if the characters that follow the first one of a word stay
    letters and digits. -/
theorem isAlphanum_joinWords {other : Char → Char} {first : Bool}
    (hother : ∀ c, isNameChar c → c ≠ '_' → (other c).isAlphanum) (h : ∀ c ∈ cs, isNameChar c) :
    ∀ c ∈ joinWords other first cs, c.isAlphanum := by
  induction cs generalizing first with
  | nil => simp [joinWords]
  | cons c cs ih =>
    rw [List.forall_mem_cons] at h
    rw [joinWords]
    split
    · exact ih h.2
    · rename_i hc
      split
      · have hupper : c ≠ '_' → c.toUpper.isAlphanum :=
          forall_nameChar (P := fun c => c ≠ '_' → c.toUpper.isAlphanum) (by decide +kernel) h.1
        rw [capitalForm_of_isNameChar h.1, List.singleton_append]
        exact List.forall_mem_cons.2 ⟨hupper hc, ih h.2⟩
      · exact List.forall_mem_cons.2 ⟨hother c h.1 hc, ih h.2⟩

/-- Words that are joined leave nothing just if there are none. -/
theorem joinWords_eq_nil {other : Char → Char} {first : Bool} (h : ∀ c ∈ cs, isNameChar c) :
    joinWords other first cs = [] ↔ ∀ c ∈ cs, c = '_' := by
  induction cs generalizing first with
  | nil => simp [joinWords]
  | cons c cs ih =>
    rw [List.forall_mem_cons] at h ⊢
    rw [joinWords]
    split
    · rename_i hc
      rw [ih h.2, and_iff_right hc]
    · rename_i hc
      refine iff_of_false ?_ fun hall => hc hall.1
      split
      · simp [capitalForm_of_isNameChar h.1]
      · simp

theorem usable_joined {other : Char → Char}
    (hother : ∀ c, isNameChar c → c ≠ '_' → (other c).isAlphanum) (h : isSchemaName name) :
    (ofType (String.ofList (joinWords other true name.toList))).IsUsable ↔
      ∃ c ∈ name.toList, c ≠ '_' := by
  have hchars : ∀ c ∈ name.toList, isNameChar c := fun c => isNameChar_of_mem h
  have halphanum : ∀ c ∈ joinWords other true name.toList, c.isAlphanum :=
    isAlphanum_joinWords hother hchars
  have hnil : joinWords other true name.toList = [] ↔ ∀ c ∈ name.toList, c = '_' :=
    joinWords_eq_nil hchars
  generalize joinWords other true name.toList = joined at halphanum hnil
  have hword : ∀ c ∈ (String.ofList joined).toList, isNameChar c := by
    intro c hc
    rw [String.toList_ofList] at hc
    rw [isNameChar, halphanum c hc, Bool.true_or]
  -- No underscore is left, so the word cannot be one.
  have hnamed : String.ofList joined ≠ "_" := by
    rintro heq
    rw [← String.toList_inj, String.toList_ofList] at heq
    exact absurd (halphanum '_' (heq ▸ by decide)) (by decide)
  have hempty : String.ofList joined = "" ↔ joined = [] := by
    rw [← String.toList_inj, String.toList_ofList]
    rfl
  rw [usable_ofType hword, and_iff_left hnamed, ne_eq, hempty, hnil]
  simp

/-- A name of a schema gives a usable identifier for a type, a module or a field exactly unless
    it is a lone underscore, and for what its joined words name exactly if it has a character
    other than an underscore. -/
theorem usable_iff (h : isSchemaName name) :
    ((ofType name).IsUsable ↔ name ≠ "_") ∧ ((ofModule name).IsUsable ↔ name ≠ "_") ∧
      ((ofField name).IsUsable ↔ name ≠ "_") ∧
      ((ofType (pascalCase name)).IsUsable ↔ ∃ c ∈ name.toList, c ≠ '_') ∧
      ((ofType (variantCase name)).IsUsable ↔ ∃ c ∈ name.toList, c ≠ '_') := by
  have hnonempty : name ≠ "" := by
    rintro rfl
    cases h
  refine ⟨?_, usable_ofModule h, usable_ofField h, usable_joined ?_ h, usable_joined ?_ h⟩
  · rw [usable_ofType fun c => isNameChar_of_mem h]
    exact and_iff_right hnonempty
  · exact fun c hc => forall_nameChar (P := fun c => c ≠ '_' → c.isAlphanum) (by decide +kernel) hc
  · exact fun c hc =>
      forall_nameChar (P := fun c => c ≠ '_' → c.toLower.isAlphanum) (by decide +kernel) hc

end Ident

end

end Protobuf
