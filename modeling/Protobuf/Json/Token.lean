import Protobuf.Json.Basic
import Protobuf.Number.Scaled

/-! # JSON tokens

JSON text cut into tokens: punctuation, names, strings with their escapes resolved,
and numbers with their values.  Text that is no token ends the list with a mark, so
that what stands before it can still be judged.

* `JsonToken.ofText`: the tokens of a text.
* `JsonToken.stringBody`: the inside of a string, up to its closing quote.
* `JsonToken.readNumber`: a number by the strict grammar, with no leading zero and no
  bare point.
-/

namespace Protobuf

inductive JsonToken
  | openArray
  | closeArray
  | openObject
  | closeObject
  | comma
  | colon
  | null
  | bool (b : Bool)
  | number (n : JsonNumber)
  | string (s : String)
  | malformed
deriving DecidableEq, Repr

namespace JsonToken

/-! ## Strings -/

/-- A piece of a string: a character that stands for itself or is named by an
    escape, or a UTF-16 unit that is spelled in hexadecimal. -/
inductive Piece
  | char (c : Char)
  | unit (n : Nat)
deriving DecidableEq, Repr

def hexDigit? (c : Char) : Option Nat :=
  if c.isDigit then some (c.toNat - '0'.toNat)
  else if 'a' ≤ c ∧ c ≤ 'f' then some (c.toNat - 'a'.toNat + 10)
  else if 'A' ≤ c ∧ c ≤ 'F' then some (c.toNat - 'A'.toNat + 10)
  else none

def hexUnit? (a b c d : Char) : Option Nat := do
  let a ← hexDigit? a
  let b ← hexDigit? b
  let c ← hexDigit? c
  let d ← hexDigit? d
  return ((a * 16 + b) * 16 + c) * 16 + d

def escape? : Char → Option Char
  | '"' => some '"'
  | '\\' => some '\\'
  | '/' => some '/'
  | 'b' => some '\x08'
  | 'f' => some '\x0c'
  | 'n' => some '\n'
  | 'r' => some '\r'
  | 't' => some '\t'
  | _ => none

def consPiece (p : Option Piece) (rest : Option (List Piece × List Char)) :
    Option (List Piece × List Char) :=
  match p, rest with
  | some p, some (ps, cs) => some (p :: ps, cs)
  | _, _ => none

def stringBody : List Char → Option (List Piece × List Char)
  | [] => none
  | '"' :: rest => some ([], rest)
  | '\\' :: 'u' :: a :: b :: c :: d :: rest =>
    consPiece ((hexUnit? a b c d).map .unit) (stringBody rest)
  | '\\' :: c :: rest => consPiece ((escape? c).map .char) (stringBody rest)
  | c :: rest =>
    if c.toNat < 0x20 ∨ c = '\\' then none else consPiece (some (.char c)) (stringBody rest)

/-- Whether a UTF-16 unit opens a surrogate pair. -/
def isHighSurrogate (n : Nat) : Bool := 0xD800 ≤ n ∧ n < 0xDC00

def isLowSurrogate (n : Nat) : Bool := 0xDC00 ≤ n ∧ n < 0xE000

/-- The characters that pieces spell.  A surrogate must be one half of a pair whose
    other half is its neighbour. -/
def joinPieces : List Piece → Option (List Char)
  | [] => some []
  | .char c :: rest => (joinPieces rest).map (c :: ·)
  | .unit n :: rest =>
    if isHighSurrogate n then
      match rest with
      | .unit m :: rest =>
        if isLowSurrogate m then
          (joinPieces rest).map (Char.ofNat (0x10000 + (n - 0xD800) * 0x400 + (m - 0xDC00)) :: ·)
        else none
      | _ => none
    else if isLowSurrogate n then none
    else (joinPieces rest).map (Char.ofNat n :: ·)

/-! ## Numbers -/

/-- Exponent digits behind an `e`, if there is an `e` at all.  `none` is an `e`
    without digits. -/
def exponentPart (cs : List Char) : Option (Option Int × List Char) :=
  match cs with
  | [] => some (none, [])
  | c :: rest =>
    if c = 'e' ∨ c = 'E' then
      let (negative, rest) := Literal.splitSign rest
      let ds := rest.takeWhile Char.isDigit
      if ds = [] then none
      else
        some (some (Literal.signed negative (Literal.natOfDigits ds)), rest.dropWhile Char.isDigit)
    else some (none, c :: rest)

/-- Digits behind a point, if there is a point at all.  `none` is a point without
    digits. -/
def fractionPart (cs : List Char) : Option (List Char × List Char) :=
  match cs with
  | '.' :: rest =>
    let ds := rest.takeWhile Char.isDigit
    if ds = [] then none else some (ds, rest.dropWhile Char.isDigit)
  | cs => some ([], cs)

/-- Digits in front of the point: a zero, or a run that does not start with one. -/
def wholePart (cs : List Char) : Option (List Char × List Char) :=
  match cs with
  | '0' :: rest => some (['0'], rest)
  | cs =>
    let ds := cs.takeWhile Char.isDigit
    if ds = [] then none else some (ds, cs.dropWhile Char.isDigit)

/-- The value of a plain integer of 64 bits.  One that is too small becomes a
    double-precision number, and so does a negative zero, whose sign would be lost. -/
def integerValue (negative : Bool) (n : Nat) : JsonNumber :=
  let value := Literal.signed negative n
  if ¬(negative ∧ n = 0) ∧ -0x8000_0000_0000_0000 ≤ value then .integer value
  else .float ((Binary64.ofNat n).signed negative)

/-- A number without its sign, and the text behind it.  One that is too large has no value. -/
def readNumber (negative : Bool) (cs : List Char) : Option (JsonNumber × List Char) := do
  let (whole, cs) ← wholePart cs
  let (fraction, cs) ← fractionPart cs
  let (exponent, cs) ← exponentPart cs
  match Significand.read 0 whole, fraction, exponent with
  | (n, 0), [], none => return (integerValue negative n, cs)
  | _, _, _ =>
    return (.float (← Significand.toBinary64? negative whole fraction (exponent.getD 0)), cs)

/-! ## Tokens -/

def isBlank (c : Char) : Bool := c = ' ' ∨ c = '\t' ∨ c = '\n' ∨ c = '\r'

def punctuation? : Char → Option JsonToken
  | '[' => some openArray
  | ']' => some closeArray
  | '\x7b' => some openObject
  | '\x7d' => some closeObject
  | ',' => some comma
  | ':' => some colon
  | _ => none

def constant? : List Char → Option (JsonToken × List Char)
  | 'n' :: 'u' :: 'l' :: 'l' :: rest => some (null, rest)
  | 't' :: 'r' :: 'u' :: 'e' :: rest => some (bool true, rest)
  | 'f' :: 'a' :: 'l' :: 's' :: 'e' :: rest => some (bool false, rest)
  | _ => none

def next? (c : Char) (rest : List Char) : Option (JsonToken × List Char) :=
  match punctuation? c with
  | some t => some (t, rest)
  | none =>
    if c = '"' then do
      let (pieces, rest) ← stringBody rest
      let cs ← joinPieces pieces
      return (string (String.ofList cs), rest)
    else if c = '-' then do
      let (n, rest) ← readNumber true rest
      return (number n, rest)
    else if c.isDigit then do
      let (n, rest) ← readNumber false (c :: rest)
      return (number n, rest)
    else constant? (c :: rest)

def scan : (left : Nat) → List Char → List JsonToken
  | _, [] => []
  | 0, _ :: _ => [malformed]
  | left + 1, c :: rest =>
    if isBlank c then scan left rest
    else
      match next? c rest with
      | some (t, rest) => t :: scan left rest
      | none => [malformed]

def ofText (text : String) : List JsonToken :=
  let cs := text.toList
  scan cs.length cs

end JsonToken

end Protobuf
