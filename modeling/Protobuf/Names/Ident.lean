import Protobuf.Generate.Error
import Protobuf.Text.Identifier
import Protobuf.Text.LetterCase

/-! # Identifiers for declared names

A name of a schema becomes an identifier of the generated code.  Its letter case is
changed to what is usual for the thing that it names, and a word that the code reserves
is either set apart by an underscore or written in raw form, behind `r#`.

* `Ident`: a word, and whether it is in raw form.
* `snakeCase`, `pascalCase`, `variantCase`.
* `Ident.ofType`, `ofModule`, `ofField`: the identifier of a name.
* `Ident.checked`: the identifier, or that it is none.
-/

namespace Protobuf

structure Ident where
  word : String
  raw : Bool := false
deriving DecidableEq, Repr

namespace Ident

def text (i : Ident) : String := if i.raw then "r#" ++ i.word else i.word

def ofText (text : String) : Ident :=
  match text.toList with
  | 'r' :: '#' :: word => ⟨String.ofList word, true⟩
  | _ => ⟨text, false⟩

def reserved : List String :=
  ["as", "break", "const", "continue", "crate", "else", "enum", "extern", "false", "fn", "for",
    "if", "impl", "in", "let", "loop", "match", "mod", "move", "mut", "pub", "ref", "return",
    "self", "Self", "static", "struct", "super", "trait", "true", "type", "unsafe", "use",
    "where", "while", "async", "await", "dyn", "abstract", "become", "box", "do", "final",
    "macro", "override", "priv", "typeof", "unsized", "virtual", "yield", "try", "gen"]

/-- The reserved words that stand for a place among modules or types.  They have no raw
    form. -/
def places : List String := ["self", "Self", "super", "crate"]

/-- An identifier that can be written: its word has the shape of one and, in raw form,
    is more than a place or an underscore. -/
def checked (i : Ident) : Except GenerateError Ident :=
  if isIdentifier i.word && !(i.raw && ("_" :: places).contains i.word) then .ok i
  else .error (.notAnIdentifier i.text)

end Ident

/-! ## Letter case -/

/-- Whether a capital begins a word of its own, going by the character before it and the
    one behind it: it follows a small letter or a digit, or is the last capital of a run
    before a small letter. -/
def beginsWord (before next : Option Char) : Bool :=
  match before with
  | none => false
  | some b =>
    isSmall b || ('0' ≤ b && b ≤ '9') ||
      (isCapital b && (next.map isSmall).getD false)

/-- Makes capitals small and puts an underscore where a word begins. -/
def snakeChars : (before : Option Char) → List Char → List Char
  | _, [] => []
  | before, c :: rest =>
    if isCapital c then
      if beginsWord before rest.head? then '_' :: c.toLower :: snakeChars (some c) rest
      else c.toLower :: snakeChars (some c) rest
    else c :: snakeChars (some c) rest

/-- A name in small letters, its words set apart by underscores: `HTTPServer` becomes
    `http_server`. -/
def snakeCase (name : String) : String := String.ofList (snakeChars none name.toList)

/-- Drops underscores, makes the first letter of each word a capital and maps the others
    by `other`. -/
def joinWords (other : Char → Char) : (first : Bool) → List Char → List Char
  | _, [] => []
  | first, c :: rest =>
    if c = '_' then joinWords other true rest
    else if first then capitalForm c ++ joinWords other false rest
    else other c :: joinWords other false rest

/-- A name with its words joined, each with a capital: `hat_size` becomes `HatSize`. -/
def pascalCase (name : String) : String := String.ofList (joinWords id true name.toList)

/-- A name in capitals with its words joined, the rest of each word in small letters:
    `HAT_SIZE` becomes `HatSize`. -/
def variantCase (name : String) : String :=
  String.ofList (joinWords Char.toLower true name.toList)

/-! ## Names of things -/

def unreserved (word : String) : String :=
  if Ident.reserved.contains word then word ++ "_" else word

def undigited (word : String) : String :=
  match word.toList with
  | c :: _ => if '0' ≤ c && c ≤ '9' then "_" ++ word else word
  | [] => word

def typeWord (name : String) : String := unreserved (undigited name)

def moduleWord (name : String) : String := unreserved (snakeCase name)

/-- The text of the identifier of a struct field.  A reserved word is written in raw
    form, where it has one. -/
def fieldWord (name : String) : String :=
  let snake := snakeCase name
  if Ident.places.contains snake then snake ++ "_"
  else if Ident.reserved.contains snake then "r#" ++ snake
  else snake

namespace Ident

def ofType (name : String) : Ident := ofText (typeWord name)

def ofModule (name : String) : Ident := ofText (moduleWord name)

def ofField (name : String) : Ident := ofText (fieldWord name)

end Ident

end Protobuf
