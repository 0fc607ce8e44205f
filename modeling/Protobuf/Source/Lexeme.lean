import Protobuf.Text.Blank
import Protobuf.Text.Identifier

/-! # Lexemes

Where comments, literals and words of code end.  Each function gives the characters behind
what stands at the front of a text, and nothing if it does not stand there.

* `Lexeme.comment?` and `Lexeme.docComment?`: a comment, and one that documents.
* `Lexeme.word?`: a word.
* `Lexeme.literal?`: a string, a character or a number.
-/

namespace Protobuf

namespace Lexeme

def behind? : (front : List Char) → List Char → Option (List Char)
  | [], cs => some cs
  | f :: front, c :: cs => if c = f then behind? front cs else none
  | _ :: _, [] => none

def startsWith (front cs : List Char) : Bool := (behind? front cs).isSome

/-! ## Comments and words -/

def line : List Char → List Char × List Char
  | [] => ([], [])
  | '\n' :: rest => ([], '\n' :: rest)
  | '\r' :: '\n' :: rest => ([], '\n' :: rest)
  | c :: rest =>
    let (front, behind) := line rest
    (c :: front, behind)

/-- The inside of a block comment and what stands behind it.  Comments nest: `depth` are
    open inside. -/
def block? : (depth : Nat) → List Char → Option (List Char × List Char)
  | _, [] => none
  | depth, '/' :: '*' :: rest =>
    (block? (depth + 1) rest).map fun (front, behind) => ('/' :: '*' :: front, behind)
  | 0, '*' :: '/' :: rest => some ([], rest)
  | depth + 1, '*' :: '/' :: rest =>
    (block? depth rest).map fun (front, behind) => ('*' :: '/' :: front, behind)
  | depth, c :: rest => (block? depth rest).map fun (front, behind) => (c :: front, behind)

def comment? (cs : List Char) : Option (List Char) :=
  let starts (text : String) := startsWith text.toList cs
  if starts "//" && (!starts "///" || starts "////") && !starts "//!" then some (line cs).2
  else if starts "/**/" then some (cs.drop 4)
  else if starts "/*" && (!starts "/**" || starts "/***") && !starts "/*!" then
    (block? 0 (cs.drop 2)).map (·.2)
  else none

structure DocComment where
  text : List Char
  /-- Whether it documents what it stands inside, and not what stands behind it. -/
  inner : Bool

/-- Whether every carriage return is a part of the end of a line. -/
def hasWholeLines : List Char → Bool
  | [] => true
  | '\r' :: '\n' :: rest => hasWholeLines rest
  | '\r' :: _ => false
  | _ :: rest => hasWholeLines rest

def docComment? (cs : List Char) : Option (DocComment × List Char) :=
  let starts (text : String) := startsWith text.toList cs
  let found : Option (DocComment × List Char) :=
    if starts "//!" then
      let (text, rest) := line (cs.drop 3)
      some (⟨text, true⟩, rest)
    else if starts "/*!" then
      (block? 0 (cs.drop 2)).map fun (text, rest) => (⟨text.drop 1, true⟩, rest)
    else if starts "///" && !starts "////" then
      let (text, rest) := line (cs.drop 3)
      some (⟨text, false⟩, rest)
    else if starts "/**" && !starts "/***" then
      (block? 0 (cs.drop 2)).map fun (text, rest) => (⟨text.drop 1, false⟩, rest)
    else none
  found.filter fun (comment, _) => hasWholeLines comment.text

def word? : List Char → Option (List Char)
  | [] => none
  | c :: rest => if isIdentifierStart c then some (rest.dropWhile isIdentifierPart) else none

/-- What stands behind the word that may follow a literal at once. -/
def behindSuffix (cs : List Char) : List Char := (word? cs).getD cs

/-! ## Strings and characters -/

/-- What a string or a character stands for, which decides what may be in it. -/
inductive Content
  | text
  | bytes
  /-- Text that a zero ends, and that has none inside. -/
  | terminated
deriving DecidableEq

def isHexDigit (c : Char) : Bool :=
  c.isDigit || ('a' ≤ c && c ≤ 'f') || ('A' ≤ c && c ≤ 'F')

def hexValue (c : Char) : Nat :=
  if c.isDigit then c.toNat - '0'.toNat
  else if 'a' ≤ c then c.toNat - 'a'.toNat + 10
  else c.toNat - 'A'.toNat + 10

/-- The digits up to a closing brace and what stands behind it.  Underscores may stand
    behind the first digit. -/
def bracedDigits? : (digits : List Char) → List Char → Option (List Char × List Char)
  | _, [] => none
  | digits, c :: rest =>
    if isHexDigit c then if digits.length = 6 then none else bracedDigits? (digits ++ [c]) rest
    else if digits = [] then none
    else if c = '_' then bracedDigits? digits rest
    else if c = '\x7d' then some (digits, rest)
    else none

def escape? (content : Content) : List Char → Option (List Char)
  | 'x' :: a :: b :: rest =>
    if isHexDigit a && isHexDigit b && (content ≠ .text || ('0' ≤ a && a ≤ '7')) &&
        (content ≠ .terminated || hexValue a + hexValue b ≠ 0) then some rest
    else none
  | 'u' :: '\x7b' :: rest =>
    if content = .bytes then none
    else
      match bracedDigits? [] rest with
      | some (digits, rest) =>
        let value := digits.foldl (fun n d => 16 * n + hexValue d) 0
        if value.isValidChar && (content ≠ .terminated || value ≠ 0) then some rest else none
      | none => none
  | '0' :: rest => if content = .terminated then none else some rest
  | c :: rest => if ['n', 'r', 't', '\\', '\'', '"'].contains c then some rest else none
  | [] => none

/-- What stands behind the blanks that go on behind the end of a line in a string.  There
    has to be something. -/
def behindBlanks? : List Char → Option (List Char)
  | [] => none
  | '\r' :: '\n' :: rest => behindBlanks? rest
  | '\r' :: _ => none
  | c :: rest => if c = ' ' || c = '\t' || c = '\n' then behindBlanks? rest else some (c :: rest)

def allows (content : Content) (c : Char) : Bool :=
  match content with
  | .text => true
  | .bytes => c.toNat < 128
  | .terminated => c ≠ '\x00'

/-- What stands behind a string, of which the first quote is not given.  `steps` bounds
    the number of its parts. -/
def string? (content : Content) : (steps : Nat) → List Char → Option (List Char)
  | 0, _ => none
  | _, [] => none
  | _ + 1, '"' :: rest => some (behindSuffix rest)
  | steps + 1, '\r' :: '\n' :: rest => string? content steps rest
  | _, '\r' :: _ => none
  | steps + 1, '\\' :: rest =>
    match rest with
    | '\n' :: _ | '\r' :: _ => (behindBlanks? rest).bind (string? content steps)
    | _ => (escape? content rest).bind (string? content steps)
  | steps + 1, c :: rest => if allows content c then string? content steps rest else none

/-- What stands behind a string without escapes, which ends in a quote and some marks. -/
def rawString? (content : Content) (marks : List Char) : List Char → Option (List Char)
  | [] => none
  | '\r' :: '\n' :: rest => rawString? content marks rest
  | '\r' :: _ => none
  | c :: rest =>
    if c = '"' && startsWith marks rest then some (behindSuffix (rest.drop marks.length))
    else if allows content c then rawString? content marks rest
    else none

def markedString? (content : Content) (cs : List Char) : Option (List Char) :=
  let marks := cs.takeWhile (· = '#')
  match cs.dropWhile (· = '#') with
  | '"' :: rest => if marks.length ≤ 255 then rawString? content marks rest else none
  | _ => none

def quotedChar? (content : Content) (cs : List Char) : Option (List Char) :=
  let behind :=
    match cs with
    | '\\' :: rest => escape? content rest
    | c :: rest => if allows content c then some rest else none
    | [] => none
  match behind with
  | some ('\'' :: rest) => some (behindSuffix rest)
  | _ => none

/-! ## Numbers and literals -/

def base (cs : List Char) : Nat × List Char :=
  match cs with
  | '0' :: 'x' :: rest => (16, rest)
  | '0' :: 'o' :: rest => (8, rest)
  | '0' :: 'b' :: rest => (2, rest)
  | _ => (10, cs)

def digits? (base : Nat) : (found : Bool) → List Char → Option (List Char)
  | found, [] => if found then some [] else none
  | found, c :: rest =>
    if c.isDigit then if hexValue c < base then digits? base true rest else none
    else if isHexDigit c && hexValue c < base then digits? base true rest
    else if c = '_' then if !found && base = 10 then none else digits? base found rest
    else if found then some (c :: rest)
    else none

/-- What stands behind a number that a word may follow at once. -/
def behindNumber? (cs : List Char) : Option (List Char) :=
  match behindSuffix cs with
  | [] => some []
  | c :: rest => if isIdentifierPart c then none else some (c :: rest)

def integer? (cs : List Char) : Option (List Char) :=
  let (base, cs) := base cs
  (digits? base false cs).bind behindNumber?

def behindDigits (cs : List Char) : List Char := cs.dropWhile fun c => c.isDigit || c = '_'

/-- What stands behind the digits of an exponent, which may have a sign behind
    underscores; `none` if there is no digit or a second sign. -/
def exponent? (cs : List Char) : Option (List Char) :=
  let cs := cs.dropWhile (· = '_')
  let signed := cs.head? = some '+' || cs.head? = some '-'
  let cs := (if signed then cs.drop 1 else cs).dropWhile (· = '_')
  match cs with
  | c :: _ => if c.isDigit then some (behindDigits cs) else none
  | [] => none

def fractional? (cs : List Char) : Option (List Char) :=
  match cs with
  | [] => none
  | c :: _ =>
    if !c.isDigit then none
    else
      let afterWhole := behindDigits cs
      let fraction : Option (List Char) :=
        match afterWhole with
        | '.' :: '.' :: _ => none
        | ['.'] => some []
        | '.' :: d :: rest =>
          if isIdentifierStart d then none else some (behindDigits (d :: rest))
        | _ => none
      let exponentOf (rest : List Char) : Option (List Char) :=
        match rest with
        | 'e' :: rest | 'E' :: rest => exponent? rest
        | _ => none
      match fraction with
      | some rest => behindNumber? ((exponentOf rest).getD rest)
      | none =>
        if afterWhole.head? = some '.' then none else (exponentOf afterWhole).bind behindNumber?

def literal? (cs : List Char) : Option (List Char) :=
  match cs with
  | '"' :: rest => string? .text cs.length rest
  | '\'' :: rest => quotedChar? .text rest
  | 'r' :: rest => markedString? .text rest
  | 'b' :: '"' :: rest => string? .bytes cs.length rest
  | 'b' :: '\'' :: rest => quotedChar? .bytes rest
  | 'b' :: 'r' :: rest => markedString? .bytes rest
  | 'c' :: '"' :: rest => string? .terminated cs.length rest
  | 'c' :: 'r' :: rest => markedString? .terminated rest
  | _ => (fractional? cs).or (integer? cs)

/-- The fronts that are kept for literals: no word starts with one of them. -/
def literalFronts : List (List Char) :=
  ["r\"", "r#\"", "r##", "b\"", "b'", "br\"", "br#", "c\"", "cr\"", "cr#"].map (·.toList)

end Lexeme

end Protobuf
