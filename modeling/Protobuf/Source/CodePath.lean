import Protobuf.Source.Expression

/-! # Paths in code

Where a type is found that is not generated is told by a path, which may have types and
constants as arguments, which may have paths in them.

* `DeeperReaders.within`: what may lie so deep inside a path.
* `CodePath.parse?`: the code of a text that is a path, and nothing else.
-/

namespace Protobuf

def DeeperReaders.none : DeeperReaders :=
  { type := fun _ => failure, constraint := failure, expression := failure, block := failure }

def DeeperReaders.within : (depth : Nat) → DeeperReaders
  | 0 => .none
  | depth + 1 =>
    let deeper := within depth
    { type := TokenReader.typeForm deeper
      constraint := TokenReader.constraint deeper
      expression := TokenReader.expression deeper
      block := TokenReader.block deeper }

namespace CodePath

/-- The code of tokens that are a path.  Every level of it takes a token. -/
def ofTokens? (depth : Nat) (tokens : List Token) : Option (List Code) :=
  match (TokenReader.path (.within depth) false).run tokens with
  | some (p, []) => some p.code
  | _ => none

/-- The code of a path with a stray word in front as an identifier, by which it can be told
    that the path is no type.  Further behind, such a word does no harm. -/
def markStrayFront (tokens : List Token) (code : List Code) : List Code :=
  match tokens with
  | .word i :: _ => if Code.strayWords.contains i.text then .ident i :: code.drop 1 else code
  | _ => code

def parse? (text : String) : Option Code := do
  let tokens ← Token.scan text
  let code ← ofTokens? (text.length + 1) tokens
  return markStrayFront tokens code

end CodePath

end Protobuf
