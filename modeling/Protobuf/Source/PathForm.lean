import Protobuf.Source.TokenReader

/-! # Paths in code, as they are read

A path is identifiers with `::` between them, perhaps `::` in front, and arguments behind a
segment: types, lifetimes and constants.  What an argument holds lies one level deeper, and
`DeeperReaders` has the readers for it.

* `DeeperReaders`.
* `TokenReader.angleArguments`: arguments in angle brackets.
* `TokenReader.path`: a path.  `TokenReader.typePath`: one that may also name a type by
  what it does for another, or have arguments in parentheses.
-/

namespace Protobuf

/-- As what a type may be taken where more follows it. -/
inductive TypeShape
  /-- One segment of a path: the name of an associated type or constant, too. -/
  | name
  | path
  | bound
  | parens
  | other
deriving DecidableEq, Repr

structure TypeForm where
  shape : TypeShape
  code : List Code

structure DeeperReaders where
  /-- A type; `plus` tells whether bounds may be added to it by plus signs. -/
  type : (plus : Bool) → TokenReader TypeForm
  constraint : TokenReader (List Code)
  expression : TokenReader (List Code)
  block : TokenReader (List Code)

namespace TokenReader

def typeCode (deeper : DeeperReaders) (plus : Bool) : TokenReader (List Code) :=
  return (← deeper.type plus).code

/-! ## Arguments in angle brackets -/

structure Argument where
  isLifetime : Bool
  code : List Code
  comma : List Code

def argumentsCode (arguments : List Argument) : List Code :=
  let (lifetimes, others) := arguments.partition (·.isLifetime)
  let gap : List Code :=
    match lifetimes.getLast?, others with
    | some last, _ :: _ => if last.comma.isEmpty then [","] else []
    | _, _ => []
  lifetimes.flatMap (fun a => a.code ++ a.comma) ++ gap ++
    others.flatMap fun a => a.code ++ a.comma

def nextConstantOrBlock : TokenReader Bool := return (← nextConstant) || (← nextGroup .braces)

def constantOrBlock (deeper : DeeperReaders) : TokenReader (List Code) := do
  if ← nextConstant then constant else deeper.block

/-- What follows the name of an associated type or constant: what it is, or its bounds. -/
def associated (deeper : DeeperReaders) : TokenReader (List Code) := do
  if ← nextMarks "=" then
    let equals ← marks "="
    if ← nextConstantOrBlock then return equals ++ (← constantOrBlock deeper)
    else return equals ++ (← typeCode deeper true)
  else if ← nextMarks ":" then
    let colon ← marks ":"
    return colon ++ (← deeper.constraint)
  else return []

/-- An argument: a lifetime, a constant, a type, or something said about an associated
    type or constant.  A lifetime that something is added to is a bound that stands for a
    type. -/
def argument (deeper : DeeperReaders) : TokenReader (Bool × List Code) := do
  if (← nextLifetime) && !spells ['+'] ((← get).drop 1) then return (true, ← lifetime)
  else if ← nextConstantOrBlock then return (false, ← constantOrBlock deeper)
  else
    let type ← deeper.type true
    if type.shape = .name then return (false, type.code ++ (← associated deeper))
    else return (false, type.code)

def argumentsWithin (deeper : DeeperReaders) : (steps : Nat) → TokenReader (List Argument)
  | 0 => failure
  | steps + 1 => do
    if ← nextMarks ">" then return []
    let (isLifetime, code) ← argument deeper
    if ← nextMarks ">" then return [⟨isLifetime, code, []⟩]
    let comma ← marks ","
    return ⟨isLifetime, code, comma⟩ :: (← argumentsWithin deeper steps)

def angleArguments (deeper : DeeperReaders) : TokenReader (List Code) := do
  let joint ← marksIf "::"
  let opening ← marks "<"
  let arguments ← argumentsWithin deeper ((← get).length + 1)
  let closing ← marks ">"
  return joint ++ opening ++ argumentsCode arguments ++ closing

/-! ## Segments -/

structure PathForm where
  code : List Code
  /-- Whether it is one segment, with nothing in front. -/
  single : Bool
  /-- Whether no segment has arguments. -/
  plain : Bool
  /-- Whether the last segment has none. -/
  lastPlain : Bool

/-- The reserved words that are segments of a path and have no arguments. -/
def placeWords : List String := ["super", "self", "crate", "try"]

def nextJointAngle : TokenReader Bool := do
  return (← nextMarks "::") && spells ['<'] ((← get).drop 2)

def nextParens (joint : Bool) : TokenReader Bool := do
  let tokens ← get
  match if joint then tokens.drop 2 else tokens with
  | .group .parens _ :: _ => return !joint || spells "::".toList tokens
  | _ => return false

def nextAngle : TokenReader Bool := do
  return (← nextMarks "<") && !(← nextMarks "<=") && !(← nextMarks "<<=")

/-- A segment, and whether it has no arguments.  In an expression, where an angle bracket
    may be a comparison, arguments have to stand behind `::`. -/
def segment (deeper : DeeperReaders) (inExpression : Bool) : TokenReader (List Code × Bool) := do
  match ← get with
  | .word i :: _ =>
    if !i.raw && placeWords.contains i.word then return (← anyWord, true)
    else
      let word ← if !i.raw && i.word = "Self" then anyWord else name
      if (!inExpression && (← nextAngle)) || (← nextJointAngle) then
        return (word ++ (← angleArguments deeper), false)
      else return (word, true)
  | _ => failure

def moreSegments (deeper : DeeperReaders) (inExpression : Bool) :
    (steps : Nat) → PathForm → TokenReader PathForm
  | 0, p => return p
  | steps + 1, p => do
    if (← nextMarks "::") && !(← nextParens true) then
      let joint ← marks "::"
      let (code, plain) ← segment deeper inExpression
      moreSegments deeper inExpression steps
        ⟨p.code ++ joint ++ code, false, p.plain && plain, plain⟩
    else return p

def pathRest (deeper : DeeperReaders) (inExpression : Bool) (p : PathForm) :
    TokenReader PathForm := do
  moreSegments deeper inExpression (← get).length p

def path (deeper : DeeperReaders) (inExpression : Bool) : TokenReader PathForm := do
  let front ← marksIf "::"
  let (code, plain) ← segment deeper inExpression
  pathRest deeper inExpression ⟨front ++ code, front.isEmpty, plain, plain⟩

/-- A path, or the type in angle brackets that it belongs to, perhaps as a trait, in front
    of its segments. -/
def qualifiedPath (deeper : DeeperReaders) (inExpression : Bool) : TokenReader PathForm := do
  if ← nextMarks "<" then
    let opening ← marks "<"
    let type ← typeCode deeper true
    let trait : List Code ←
      if ← nextWord "as" then pure ((← word "as") ++ (← path deeper false).code) else pure []
    let closing ← marks ">"
    let joint ← marks "::"
    let (code, plain) ← segment deeper inExpression
    let front := opening ++ type ++ trait ++ closing ++ joint
    let p ← moreSegments deeper inExpression (← get).length ⟨code, false, plain, plain⟩
    return ⟨front ++ p.code, false, false, p.lastPlain⟩
  else path deeper inExpression

/-! ## Arguments in parentheses -/

def output (deeper : DeeperReaders) : TokenReader (List Code × Bool) := do
  if ← nextMarks "->" then
    let arrow ← marks "->"
    let type ← deeper.type false
    return (arrow ++ type.code, type.shape = .parens)
  else return ([], true)

/-- The arguments of a function in parentheses and what it gives, perhaps with `::` in
    front, which is not kept.  More segments may follow where `output` says so. -/
def parensArguments (deeper : DeeperReaders) : TokenReader (List Code × Bool) := do
  let _ ← marksIf "::"
  let inputs ← group .parens (commaList (typeCode deeper true))
  let (output, more) ← output deeper
  return (inputs ++ output, more)

/-- Whether arguments in parentheses may follow a path and do. -/
def nextParensArguments (p : PathForm) : TokenReader Bool := do
  return p.lastPlain && ((← nextParens false) || (← nextParens true))

/-- Arguments in parentheses behind a path and what follows them.  `steps` bounds how
    often there are some. -/
def parensRest (deeper : DeeperReaders) : (steps : Nat) → PathForm → TokenReader PathForm
  | 0, p => return p
  | steps + 1, p => do
    if ← nextParensArguments p then
      let (code, more) ← parensArguments deeper
      let p : PathForm := ⟨p.code ++ code, false, false, false⟩
      if more then parensRest deeper steps (← pathRest deeper false p) else return p
    else return p

def typePath (deeper : DeeperReaders) : TokenReader PathForm := do
  let p ← qualifiedPath deeper false
  parensRest deeper (← get).length p

def traitPath (deeper : DeeperReaders) : TokenReader PathForm := do
  let p ← path deeper false
  if ← nextParensArguments p then
    let (code, _) ← parensArguments deeper
    return ⟨p.code ++ code, false, false, false⟩
  else return p

end TokenReader

end Protobuf
