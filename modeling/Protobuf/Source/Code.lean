import Protobuf.Names.Ident
import Protobuf.Text.Printable

/-! # Code

Generated code as a tree of tokens.  Where it is written out, one blank stands between
two tokens; brackets hold what is inside them without blanks, braces with.

* `Code`: fixed tokens, identifiers, string literals and what brackets hold.
* `Code.render`: the text of code.
* `Code.hasStrayWord`: whether a word that is no name stands where one has to.
-/

namespace Protobuf

inductive Delimiter
  | parens
  | brackets
  | braces
deriving DecidableEq, Repr

/-- Code, as far as it is written out. -/
inductive Code
  /-- Tokens that no schema changes, in their written form. -/
  | fixed (text : String)
  | ident (i : Ident)
  | literal (value : String)
  | group (d : Delimiter) (body : List Code)
  | sequence (parts : List Code)

namespace Code

instance : Coe String Code := ⟨fixed⟩
instance : Coe Ident Code := ⟨ident⟩
instance : Coe (List Code) Code := ⟨sequence⟩
instance : Inhabited Code := ⟨sequence []⟩

def parens (body : List Code) : Code := group .parens body

def brackets (body : List Code) : Code := group .brackets body

def braces (body : List Code) : Code := group .braces body

def none : Code := sequence []

def integer (n : Int) : Code := fixed (if n < 0 then s!"- {n.natAbs}" else toString n)

/-! ## Writing code out -/

/-- One character of a string literal, given the one behind it.  What cannot be shown is
    escaped; the short form of a zero is not used where a digit would be taken for a part
    of it. -/
def quotedChar (c : Char) (next : Option Char) : List Char :=
  match c with
  | '\x00' =>
    if (next.map fun d => '0' ≤ d && d ≤ '7').getD false then "\\x00".toList else "\\0".toList
  | '\t' => "\\t".toList
  | '\n' => "\\n".toList
  | '\r' => "\\r".toList
  | '"' => "\\\"".toList
  | '\\' => "\\\\".toList
  | c =>
    if isPrintable c then [c]
    else "\\u\x7b".toList ++ Nat.toDigits 16 c.toNat ++ "\x7d".toList

def quotedChars : List Char → List Char
  | [] => []
  | c :: rest => quotedChar c rest.head? ++ quotedChars rest

def quoted (value : String) : String := "\"" ++ String.ofList (quotedChars value.toList) ++ "\""

def enclosed (d : Delimiter) (tokens : List String) : String :=
  match d with
  | .parens => "(" ++ " ".intercalate tokens ++ ")"
  | .brackets => "[" ++ " ".intercalate tokens ++ "]"
  | .braces => " ".intercalate (["\x7b"] ++ tokens ++ ["\x7d"])

mutual

/-- The written tokens of code; what brackets hold counts as one. -/
def tokens : Code → List String
  | fixed text => [text]
  | ident i => [i.text]
  | literal value => [quoted value]
  | group d body => [enclosed d (listTokens body)]
  | sequence parts => listTokens parts

def listTokens : List Code → List String
  | [] => []
  | c :: rest => c.tokens ++ listTokens rest

end

def isEmpty (c : Code) : Bool := c.tokens.isEmpty

def render (c : Code) : String := " ".intercalate c.tokens

/-! ## Words that are no names -/

/-- The words that an identifier of code may be though they name nothing: a lone underscore,
    and a word that may begin a path but no type. -/
def strayWords : List String := ["_", "try"]

mutual

/-- Whether an identifier in code names nothing.  Such code does not parse. -/
def hasStrayWord : Code → Bool
  | ident i => strayWords.contains i.text
  | group _ body => anyStrayWord body
  | sequence parts => anyStrayWord parts
  | _ => false

def anyStrayWord : List Code → Bool
  | [] => false
  | c :: rest => c.hasStrayWord || anyStrayWord rest

end

end Code

end Protobuf
