import Protobuf.Source.TypeForm

/-! # Expressions in code, as they are read

The constants among the arguments of a type and the lengths of arrays are expressions.
Those that have a value by themselves are read here: literals, paths, operators, calls,
fields and elements, tuples and arrays, conditions and blocks of statements that are
expressions.  Loops, matches, closures and declarations are not read.

* `TokenReader.operand`: an expression without operators between two others.
* `TokenReader.expression`: an expression.
* `TokenReader.block`: statements in braces.
-/

namespace Protobuf

namespace TokenReader

/-- The parts of a number behind a dot: the positions of two fields may look like a number
    with a fraction. -/
def fieldPositions? (text : String) : Option (List String) :=
  let cs := text.toList
  let first := cs.takeWhile Char.isDigit
  match first, cs.dropWhile Char.isDigit with
  | [], _ => none
  | _, [] => some [text]
  | _, '.' :: rest =>
    if rest ≠ [] && rest.all Char.isDigit then some [String.ofList first, String.ofList rest]
    else none
  | _, _ => none

def member (deeper : DeeperReaders) : TokenReader (List Code) := do
  match ← get with
  | .literal text :: rest =>
    match fieldPositions? text with
    | some parts =>
      set rest
      return (parts.map Code.fixed).intersperse "."
    | none => failure
  | _ =>
    if ← nextWord "await" then word "await"
    else
      let field ← name
      let arguments ← if ← nextMarks "::" then angleArguments deeper else pure []
      if !arguments.isEmpty || (← nextGroup .parens) then
        return field ++ arguments ++ (← group .parens (commaList deeper.expression))
      else return field

/-- What follows an operand: calls, fields, elements and the marks that pass errors on.
    `steps` bounds their number. -/
def trailers (deeper : DeeperReaders) : (steps : Nat) → List Code → TokenReader (List Code)
  | 0, code => return code
  | steps + 1, code => do
    if ← nextGroup .parens then
      trailers deeper steps (code ++ (← group .parens (commaList deeper.expression)))
    else if ← nextGroup .brackets then
      trailers deeper steps (code ++ (← group .brackets deeper.expression))
    else if (← nextMarks ".") && !(← nextMarks "..") then
      let dot ← marks "."
      trailers deeper steps (code ++ dot ++ (← member deeper))
    else if ← nextMarks "?" then
      trailers deeper steps (code ++ (← marks "?"))
    else return code

def elements (deeper : DeeperReaders) : TokenReader (List Code) := do
  if ← atEnd then return []
  let first ← deeper.expression
  if ← nextMarks ";" then
    let gap ← marks ";"
    return first ++ gap ++ (← deeper.expression)
  else if ← atEnd then return first
  else
    let comma ← marks ","
    return first ++ comma ++ (← commaList deeper.expression)

def pathOrMacro (deeper : DeeperReaders) : TokenReader (List Code) := do
  let qualified ← nextMarks "<"
  let p ← qualifiedPath deeper true
  if !qualified && p.plain && (← nextMarks "!") && !(← nextMarks "!=") then
    let mark ← marks "!"
    return p.code ++ mark ++ (← anyGroup)
  else return p.code

/-- A condition and what is chosen by it.  `steps` bounds the number of conditions. -/
def condition (deeper : DeeperReaders) (test : TokenReader (List Code)) :
    (steps : Nat) → TokenReader (List Code)
  | 0 => failure
  | steps + 1 => do
    let front ← word "if"
    let code := front ++ (← test) ++ (← deeper.block)
    if ← nextWord "else" then
      let mark ← word "else"
      if ← nextWord "if" then return code ++ mark ++ (← condition deeper test steps)
      else return code ++ mark ++ (← deeper.block)
    else return code

/-- Whether a block is next, perhaps behind a word that says how it is run. -/
def nextBlock : TokenReader Bool := do
  match ← get with
  | .group .braces _ :: _ => return true
  | .word i :: .group .braces _ :: _ => return !i.raw && (i.word = "unsafe" || i.word = "const")
  | _ => return false

def markedBlock (deeper : DeeperReaders) : TokenReader (List Code) := do
  if ← nextGroup .braces then deeper.block else return (← anyWord) ++ (← deeper.block)

def nextValuePath : TokenReader Bool := do
  if ← nextWord "try" then
    let rest := (← get).drop 1
    return spells ['!'] rest || spells "::".toList rest
  else nextTypePath

/-- An operand without what may stand in front of it and behind it.  `test` reads the
    condition of a choice. -/
def atom (deeper : DeeperReaders) (test : TokenReader (List Code)) : TokenReader (List Code) := do
  if ← nextConstant then constant
  else if ← nextBlock then markedBlock deeper
  else if ← nextWord "if" then condition deeper test ((← get).length + 1)
  else if ← nextValuePath then pathOrMacro deeper
  else if ← nextGroup .parens then group .parens (commaList deeper.expression)
  else if ← nextGroup .brackets then group .brackets (elements deeper)
  else if ← nextWord "_" then anyWord
  else failure

def frontMark : TokenReader (List Code) := do
  if ← nextMarks "&" then
    let mark ← marks "&"
    let raw ←
      match ← get with
      | .word i :: .word j :: _ =>
        pure (i.text = "raw" && (j.text = "const" || j.text = "mut"))
      | _ => pure false
    if raw then return mark ++ (← anyWord) ++ (← anyWord)
    else return mark ++ (← wordIf "mut")
  else if ← nextMarks "*" then marks "*"
  else if ← nextMarks "!" then marks "!"
  else if ← nextMarks "-" then marks "-"
  else return []

def operand (deeper : DeeperReaders) (test : TokenReader (List Code)) :
    (steps : Nat) → TokenReader (List Code)
  | 0 => failure
  | steps + 1 => do
    let mark ← frontMark
    if mark.isEmpty then
      let code ← atom deeper test
      trailers deeper (← get).length code
    else return mark ++ (← operand deeper test steps)

/-! ## Operators -/

/-- The operators, those that begin with another one first. -/
def operators : List String :=
  ["+=", "-=", "*=", "/=", "%=", "^=", "&=", "|=", "<<=", ">>=", "&&", "||", "<<", ">>", "==",
    "<=", "!=", ">=", "+", "-", "*", "/", "%", "^", "&", "|", "<", ">"]

def comparisons : List String := ["==", "<=", "!=", ">=", "<", ">"]

def looseOperators : List String :=
  ["&&", "||", "+=", "-=", "*=", "/=", "%=", "^=", "&=", "|=", "<<=", ">>="]

def nextOperator : TokenReader (Option String) := do
  let tokens ← get
  return operators.find? fun op => spells op.toList tokens

/-- Whether nothing more can follow a range that has no end. -/
def atRangeEnd : TokenReader Bool := do
  match ← get with
  | [] => return true
  | tokens =>
    return spells [','] tokens || spells [';'] tokens || spells "=>".toList tokens ||
      (spells ['.'] tokens && !spells "..".toList tokens)

structure Operands where
  code : List Code
  /-- Whether a comparison was read that a further one would follow. -/
  compared : Bool
  /-- Whether a range was read, which only its end may follow. -/
  ranged : Bool

def moreOperands (next : TokenReader (List Code)) (cast : TokenReader (List Code)) :
    (steps : Nat) → Operands → TokenReader (List Code)
  | 0, e => return e.code
  | steps + 1, e => do
    match ← nextOperator with
    | some op =>
      let compares := comparisons.contains op
      let assigns := (op.toList.getLast? = some '=') && !compares
      if (compares && e.compared) || (assigns && e.ranged) then failure
      let mark ← marks op
      let compared := compares || (e.compared && !looseOperators.contains op)
      moreOperands next cast steps ⟨e.code ++ mark ++ (← next), compared, e.ranged⟩
    | none =>
      if (← nextMarks "=") && !(← nextMarks "=>") then
        if e.ranged then failure
        let mark ← marks "="
        moreOperands next cast steps ⟨e.code ++ mark ++ (← next), false, false⟩
      else if ← nextMarks ".." then
        if e.ranged then failure
        if ← nextMarks "..=" then
          let mark ← marks "..="
          moreOperands next cast steps ⟨e.code ++ mark ++ (← next), false, true⟩
        else
          let mark ← marks ".."
          if ← atRangeEnd then return e.code ++ mark
          else moreOperands next cast steps ⟨e.code ++ mark ++ (← next), false, true⟩
      else if ← nextWord "as" then
        let mark ← word "as"
        moreOperands next cast steps { e with code := e.code ++ mark ++ (← cast) }
      else return e.code

def expressionRest (deeper : DeeperReaders) (next : TokenReader (List Code)) (first : List Code) :
    TokenReader (List Code) := do
  moreOperands next (typeCode deeper false) ((← get).length + 1) ⟨first, false, false⟩

/-- An expression without a choice by a condition inside another condition. -/
def plainExpression (deeper : DeeperReaders) : TokenReader (List Code) := do
  let next := do operand deeper failure ((← get).length + 1)
  expressionRest deeper next (← next)

def anyOperand (deeper : DeeperReaders) : TokenReader (List Code) := do
  operand deeper (plainExpression deeper) ((← get).length + 1)

def expression (deeper : DeeperReaders) : TokenReader (List Code) := do
  if ← nextMarks ".." then
    let mark ← if ← nextMarks "..=" then marks "..=" else marks ".."
    if mark.isEmpty || (← atRangeEnd) then return mark
    else
      let first ← anyOperand deeper
      moreOperands (anyOperand deeper) (typeCode deeper false) ((← get).length + 1)
        ⟨mark ++ first, false, true⟩
  else expressionRest deeper (anyOperand deeper) (← anyOperand deeper)

/-! ## Statements -/

/-- A statement, and whether a semicolon has to follow it if it is not the last. -/
def statement (deeper : DeeperReaders) : TokenReader (List Code × Bool) := do
  if (← nextBlock) || (← nextWord "if") then
    let code ← atom deeper (plainExpression deeper)
    if ((← nextMarks ".") && !(← nextMarks "..")) || (← nextMarks "?") then
      let first ← trailers deeper (← get).length code
      return (← expressionRest deeper (anyOperand deeper) first, true)
    else return (code, false)
  else return (← expression deeper, true)

def statementsWithin (deeper : DeeperReaders) : (steps : Nat) → TokenReader (List Code)
  | 0 => failure
  | steps + 1 => do
    if ← atEnd then return []
    else if ← nextMarks ";" then return (← marks ";") ++ (← statementsWithin deeper steps)
    else
      let (code, needsMark) ← statement deeper
      if ← atEnd then return code
      else
        let mark ← if needsMark then marks ";" else marksIf ";"
        return code ++ mark ++ (← statementsWithin deeper steps)

def block (deeper : DeeperReaders) : TokenReader (List Code) :=
  group .braces do statementsWithin deeper ((← get).length + 1)

end TokenReader

end Protobuf
