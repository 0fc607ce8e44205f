import Protobuf.Source.Code
import Protobuf.Source.Lexeme

/-! # Tokens

Code as it is read: words, marks, literals and lifetimes, and what brackets hold.  Blanks
and comments stand between tokens and are none, but for comments that document something.

* `Token`.
* `Token.scan`: the tokens of a text.  Brackets have to match.
* `Token.texts`: tokens in their written form.
-/

namespace Protobuf

inductive Token
  | word (i : Ident)
  | lifetime (i : Ident)
  | literal (text : String)
  /-- A mark; `joined` tells whether another one follows it at once. -/
  | mark (c : Char) (joined : Bool)
  | group (d : Delimiter) (body : List Token)
deriving Repr

namespace Token

/-! ## Reading tokens -/

def marks : List Char := "~!@#$%^&*-=+|;:,<.>/?'".toList

/-- Whether a text starts with a mark.  A slash that begins a comment is none. -/
def startsWithMark (cs : List Char) : Bool :=
  match cs with
  | '/' :: '/' :: _ | '/' :: '*' :: _ => false
  | c :: _ => marks.contains c
  | [] => false

def isSpace (c : Char) : Bool := isBlank c || c = '\u200e' || c = '\u200f'

def front (cs behind : List Char) : String :=
  String.ofList (cs.take (cs.length - behind.length))

/-- A word at the front of a text and what stands behind it.  Raw form is not for words
    that stand for a place, nor for an underscore. -/
def ident? (cs : List Char) : Option (Ident × List Char) :=
  match cs with
  | 'r' :: '#' :: rest =>
    match Lexeme.word? rest with
    | some behind =>
      let i : Ident := ⟨front rest behind, true⟩
      if ("_" :: Ident.places).contains i.word then none else some (i, behind)
    | none => none
  | _ => (Lexeme.word? cs).map fun behind => (⟨front cs behind, false⟩, behind)

/-- A word that does not look like the front of a literal. -/
def plainIdent? (cs : List Char) : Option (Ident × List Char) :=
  if Lexeme.literalFronts.any (Lexeme.startsWith · cs) then none else ident? cs

def lifetime? (cs : List Char) : Option (Token × List Char) :=
  if (Lexeme.literal? cs).isSome then none
  else
    match plainIdent? cs with
    | some (_, '\'' :: _) => none
    | some (i, '#' :: rest) => if i.raw then some (lifetime i, '#' :: rest) else none
    | some (i, rest) => some (lifetime i, rest)
    | none => none

def leaf? (cs : List Char) : Option (Token × List Char) :=
  match Lexeme.literal? cs with
  | some rest => some (literal (front cs rest), rest)
  | none =>
    match cs with
    | '\'' :: rest => lifetime? rest
    | c :: rest =>
      if startsWithMark cs then some (mark c (startsWithMark rest), rest)
      else (plainIdent? cs).map fun (i, rest) => (word i, rest)
    | [] => none

def ofDocComment (comment : Lexeme.DocComment) : List Token :=
  mark '#' false :: (if comment.inner then [mark '!' false] else []) ++
    [group .brackets
      [word ⟨"doc", false⟩, mark '=' false,
        literal (Code.quoted (String.ofList comment.text))]]

def opened? : Char → Option Delimiter
  | '(' => some .parens
  | '[' => some .brackets
  | '\x7b' => some .braces
  | _ => none

def closed? : Char → Option Delimiter
  | ')' => some .parens
  | ']' => some .brackets
  | '\x7d' => some .braces
  | _ => none

/-- The tokens of a text.  `outer` are the brackets that are open, each with the tokens in
    front of it, and `done` the tokens since the last one was opened, last first.  Every
    step takes at least one character. -/
def scanFrom : (steps : Nat) → (outer : List (Delimiter × List Token)) → (done : List Token) →
    List Char → Option (List Token)
  | 0, _, _, _ => none
  | _ + 1, [], done, [] => some done.reverse
  | _ + 1, _ :: _, _, [] => none
  | steps + 1, outer, done, c :: rest =>
    if isSpace c then scanFrom steps outer done rest
    else
      match Lexeme.comment? (c :: rest) with
      | some rest => scanFrom steps outer done rest
      | none =>
        match Lexeme.docComment? (c :: rest) with
        | some (comment, rest) =>
          scanFrom steps outer ((ofDocComment comment).reverse ++ done) rest
        | none =>
          match opened? c, closed? c with
          | some d, _ => scanFrom steps ((d, done) :: outer) [] rest
          | none, some d =>
            match outer with
            | (opened, before) :: outer =>
              if opened = d then scanFrom steps outer (group d done.reverse :: before) rest
              else none
            | [] => none
          | none, none =>
            match leaf? (c :: rest) with
            | some (token, rest) => scanFrom steps outer (token :: done) rest
            | none => none

def scan (text : String) : Option (List Token) :=
  let cs :=
    match text.toList with
    | '\ufeff' :: rest => rest
    | cs => cs
  scanFrom (cs.length + 1) [] [] cs

/-! ## Writing tokens -/

/-- Puts a mark in front of texts, as a part of the first one if it is joined to it. -/
def consMark (c : Char) (joined : Bool) (texts : List String) : List String :=
  match joined, texts with
  | true, text :: rest => (c.toString ++ text) :: rest
  | _, _ => c.toString :: texts

def texts : List Token → List String
  | [] => []
  | word i :: rest => i.text :: texts rest
  | lifetime i :: rest => ("'" ++ i.text) :: texts rest
  | literal text :: rest => text :: texts rest
  | mark c joined :: rest => consMark c joined (texts rest)
  | group d body :: rest => Code.enclosed d (texts body) :: texts rest

def code (tokens : List Token) : List Code := (texts tokens).map .fixed

end Token

end Protobuf
