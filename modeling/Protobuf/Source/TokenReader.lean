import Protobuf.Source.Token

/-! # Reading from tokens

A reader takes tokens from the front of a list and gives what it made of them, or nothing
if they are not what it reads.  There is no way back: what a reader has taken stays taken.

* `TokenReader`, with readers for marks, words, lifetimes and what brackets hold.
* `TokenReader.separated`: a list with a mark between two elements.
-/

namespace Protobuf

abbrev TokenReader (α : Type) := StateT (List Token) Option α

namespace TokenReader

/-! ## Looking ahead -/

/-- Whether tokens start with marks that follow one another at once. -/
def spells : (text : List Char) → List Token → Bool
  | [], _ => true
  | [c], .mark d _ :: _ => c = d
  | c :: text, .mark d true :: rest => c = d && spells text rest
  | _, _ => false

def nextMarks (text : String) : TokenReader Bool := return spells text.toList (← get)

def nextWord (word : String) : TokenReader Bool := do
  match ← get with
  | .word i :: _ => return !i.raw && i.word = word
  | _ => return false

/-- The words that are no identifiers unless they are in raw form. -/
def closedWords : List String := "_" :: Ident.reserved.filter (· ≠ "gen")

def isName : Token → Bool
  | .word i => i.raw || !closedWords.contains i.word
  | _ => false

def nextName : TokenReader Bool := return ((← get).head?.map isName).getD false

def nextLifetime : TokenReader Bool := do
  match ← get with
  | .lifetime _ :: _ => return true
  | _ => return false

def nextGroup (d : Delimiter) : TokenReader Bool := do
  match ← get with
  | .group d' _ :: _ => return d' = d
  | _ => return false

def atEnd : TokenReader Bool := return (← get).isEmpty

/-- Whether tokens are a literal; a truth value is one, and so is a number with a sign. -/
def startsWithConstant : List Token → Bool
  | .literal _ :: _ => true
  | .word i :: _ => !i.raw && (i.word = "true" || i.word = "false")
  | .mark '-' _ :: .literal text :: _ => (text.toList.head?.map Char.isDigit).getD false
  | _ => false

def nextConstant : TokenReader Bool := return startsWithConstant (← get)

/-! ## Taking tokens -/

def marks (text : String) : TokenReader (List Code) := do
  if ← nextMarks text then
    modify (·.drop text.length)
    return [.fixed text]
  else failure

def marksIf (text : String) : TokenReader (List Code) := do
  if ← nextMarks text then marks text else return []

def word (text : String) : TokenReader (List Code) := do
  if ← nextWord text then
    modify (·.drop 1)
    return [.fixed text]
  else failure

def wordIf (text : String) : TokenReader (List Code) := do
  if ← nextWord text then word text else return []

def anyWord : TokenReader (List Code) := do
  match ← get with
  | .word i :: rest =>
    set rest
    return [.fixed i.text]
  | _ => failure

def name : TokenReader (List Code) := do if ← nextName then anyWord else failure

def lifetime : TokenReader (List Code) := do
  match ← get with
  | .lifetime i :: rest =>
    set rest
    return [.fixed ("'" ++ i.text)]
  | _ => failure

def constant : TokenReader (List Code) := do
  match ← get with
  | .literal text :: rest =>
    set rest
    return [.fixed text]
  | .mark '-' _ :: .literal text :: rest =>
    set rest
    return ["-", .fixed text]
  | _ => if (← nextWord "true") || (← nextWord "false") then anyWord else failure

def inGroup {α : Type} (d : Delimiter) (inner : TokenReader α) : TokenReader α := do
  match ← get with
  | .group d' body :: rest =>
    if d' = d then
      match inner.run body with
      | some (a, []) =>
        set rest
        return a
      | _ => failure
    else failure
  | _ => failure

def group (d : Delimiter) (inner : TokenReader (List Code)) : TokenReader (List Code) :=
  return [.group d (← inGroup d inner)]

def anyGroup : TokenReader (List Code) := do
  match ← get with
  | .group d body :: rest =>
    set rest
    return [.group d (Token.code body)]
  | _ => failure

/-! ## Lists -/

/-- Reads elements up to where `ends` tells that there are no more, with a mark between
    two of them and perhaps one behind the last.  `steps` bounds their number. -/
def separatedWithin (mark : String) (ends : TokenReader Bool) (element : TokenReader (List Code)) :
    (steps : Nat) → TokenReader (List Code)
  | 0 => failure
  | steps + 1 => do
    if ← ends then return []
    let first ← element
    if ← ends then return first
    let gap ← marks mark
    return first ++ gap ++ (← separatedWithin mark ends element steps)

/-- Reads elements with a mark between two of them and perhaps one behind the last. -/
def separated (mark : String) (ends : TokenReader Bool) (element : TokenReader (List Code)) :
    TokenReader (List Code) := do
  separatedWithin mark ends element ((← get).length + 1)

def commaList (element : TokenReader (List Code)) : TokenReader (List Code) :=
  separated "," atEnd element

end TokenReader

end Protobuf
