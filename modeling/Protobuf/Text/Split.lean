/-! # Splitting texts

A text cut at every occurrence of a character.

* `splitChars`, `splitText`: the pieces, of which there is always one.
* `splitChars_join`: the pieces put together again are the text.
-/

namespace Protobuf

/-- The pieces of a list of characters between the occurrences of `sep`. -/
def splitChars (sep : Char) : List Char → List (List Char)
  | [] => [[]]
  | c :: rest =>
    if c = sep then [] :: splitChars sep rest
    else
      match splitChars sep rest with
      | [] => [[c]]
      | piece :: pieces => (c :: piece) :: pieces

theorem splitChars_ne_nil (sep : Char) (cs : List Char) : splitChars sep cs ≠ [] := by
  cases cs with
  | nil => simp [splitChars]
  | cons c rest =>
    unfold splitChars
    split
    · simp
    · split <;> simp

/-- The pieces put together again, with `sep` between them, are the text. -/
theorem splitChars_join (sep : Char) (cs : List Char) :
    [sep].intercalate (splitChars sep cs) = cs := by
  induction cs with
  | nil => rfl
  | cons c rest ih =>
    unfold splitChars
    split
    · rename_i h
      obtain ⟨piece, pieces, hp⟩ := List.exists_cons_of_ne_nil (splitChars_ne_nil sep rest)
      rw [hp] at ih ⊢
      simp [List.intercalate, h] at ih ⊢
      exact ih
    · split
      · rename_i hp
        exact absurd hp (splitChars_ne_nil sep rest)
      · rename_i piece pieces hp
        rw [hp] at ih
        cases pieces with
        | nil => simpa [List.intercalate] using ih
        | cons next more => simpa [List.intercalate] using ih

def splitText (sep : Char) (text : String) : List String :=
  (splitChars sep text.toList).map String.ofList

end Protobuf
