import Protobuf.Source.PathForm

/-! # Types in code, as they are read

* `TokenReader.bound` and `bounds`: what a type may be asked for.
* `TokenReader.functionType`: the type of a function.
* `TokenReader.typeForm`: a type, and as what it may be taken where more follows.
-/

namespace Protobuf

namespace TokenReader

/-- A parameter that stands for a lifetime or a type: a lifetime may have others that it
    has to live at least as long as. -/
def boundParameter : TokenReader (List Code) := do
  if ← nextLifetime then
    let a ← lifetime
    let colon ← marksIf ":"
    if colon.isEmpty then return a
    else
      let ends := return (← nextMarks ",") || (← nextMarks ">")
      return a ++ colon ++ (← separated "+" ends lifetime)
  else name

def anglesOf (element : TokenReader (List Code)) : TokenReader (List Code) := do
  let opening ← marks "<"
  let parameters ← separated "," (nextMarks ">") element
  let closing ← marks ">"
  return opening ++ parameters ++ closing

def binderIf : TokenReader (List Code) := do
  if ← nextWord "for" then return (← word "for") ++ (← anglesOf boundParameter) else return []

structure Bound where
  /-- Whether it asks for a trait, and not for a lifetime. -/
  isTrait : Bool
  code : List Code

structure BoundKinds where
  /-- The parameters that a type uses. -/
  captures : Bool
  /-- Traits that hold in constants. -/
  constants : Bool

def constantMark (kinds : BoundKinds) : TokenReader (List Code) := do
  let mark ←
    if ← nextGroup .brackets then group .brackets (word "const") else wordIf "const"
  if !mark.isEmpty && !kinds.constants then failure else return mark

def traitBound (deeper : DeeperReaders) (kinds : BoundKinds) : TokenReader (List Code) := do
  let binder ← binderIf
  let mark ← constantMark kinds
  let maybe ← marksIf "?"
  let path ← traitPath deeper
  if !maybe.isEmpty && !binder.isEmpty then failure
  else return binder ++ mark ++ maybe ++ path.code

/-- A parameter that a type may say it uses. -/
def capture : TokenReader (List Code) := do
  if ← nextLifetime then lifetime else if ← nextWord "Self" then anyWord else name

def bound (deeper : DeeperReaders) (kinds : BoundKinds) : TokenReader Bound := do
  if ← nextLifetime then return ⟨false, ← lifetime⟩
  else if ← nextWord "use" then
    if kinds.captures then return ⟨false, (← word "use") ++ (← anglesOf capture)⟩ else failure
  else if ← nextGroup .parens then
    return ⟨true, ← group .parens (traitBound deeper kinds)⟩
  else return ⟨true, ← traitBound deeper kinds⟩

def nextBound (kinds : BoundKinds) : TokenReader Bool := do
  match ← get with
  | .word _ :: _ | .lifetime _ :: _ | .group .parens _ :: _ => return true
  | .group .brackets _ :: _ => return kinds.constants
  | tokens => return spells "::".toList tokens || spells ['?'] tokens

/-- Further bounds behind others, with plus signs in front.  A plus sign may be the last
    one of them.  `steps` bounds their number. -/
def moreBounds (deeper : DeeperReaders) (kinds : BoundKinds) :
    (steps : Nat) → Bound → TokenReader Bound
  | 0, b => return b
  | steps + 1, b => do
    if ← nextMarks "+" then
      let plus ← marks "+"
      if ← nextBound kinds then
        let c ← bound deeper kinds
        moreBounds deeper kinds steps ⟨b.isTrait || c.isTrait, b.code ++ plus ++ c.code⟩
      else return ⟨b.isTrait, b.code ++ plus⟩
    else return b

def addedBounds (deeper : DeeperReaders) (steps : Nat) (code : List Code) :
    TokenReader (List Code) := do
  match steps with
  | 0 => return code
  | steps + 1 =>
    if ← nextMarks "+" then
      let plus ← marks "+"
      let b ← bound deeper ⟨false, false⟩
      addedBounds deeper steps (code ++ plus ++ b.code)
    else return code

/-- Bounds with plus signs between them, one of which has to ask for a trait.  `plus` tells
    whether there may be more than one. -/
def bounds (deeper : DeeperReaders) (kinds : BoundKinds) (plus : Bool) :
    TokenReader (List Code) := do
  let first ← bound deeper kinds
  let all ← if plus then moreBounds deeper kinds (← get).length first else pure first
  if all.isTrait then return all.code else failure

def constraint (deeper : DeeperReaders) : TokenReader (List Code) := do
  let ends := return (← nextMarks ",") || (← nextMarks ">")
  separated "+" ends (return (← bound deeper ⟨false, true⟩).code)

/-! ## Functions -/

/-- The mark of a function that takes further arguments, which only a comma may follow. -/
def moreInputs : TokenReader (List Code) := do
  let mark ← marks "..."
  match ← get with
  | [] | [.mark ',' _] => return mark
  | _ => failure

def functionInput (deeper : DeeperReaders) : TokenReader (List Code) := do
  let named ←
    match ← get with
    | i :: rest =>
      pure ((isName i || (← nextWord "_")) && spells [':'] rest &&
        !spells "::".toList rest)
    | [] => pure false
  let front ← if named then pure ((← anyWord) ++ (← marks ":")) else pure []
  if ← nextMarks "..." then return front ++ (← moreInputs)
  else return front ++ (← typeCode deeper true)

def functionType (deeper : DeeperReaders) : TokenReader (List Code) := do
  let safety ← wordIf "unsafe"
  let convention : List Code ←
    if ← nextWord "extern" then
      let mark ← word "extern"
      match ← get with
      | .literal text :: _ =>
        if text.startsWith "\"" || text.startsWith "r" then pure (mark ++ (← constant))
        else pure mark
      | _ => pure mark
    else pure []
  let mark ← word "fn"
  let inputs ← group .parens (commaList (functionInput deeper))
  let (output, _) ← output deeper
  return safety ++ convention ++ mark ++ inputs ++ output

/-! ## Types -/

/-- What parentheses hold: nothing, bounds, a type, or several. -/
inductive ParensContent
  | tuple (code : List Code)
  | lifetimeBounds (code : List Code)
  | maybeBound (code : List Code)
  | single (type : TypeForm)

def parensContent (deeper : DeeperReaders) : TokenReader ParensContent := do
  if ← atEnd then return .tuple []
  else if ← nextLifetime then return .lifetimeBounds (← typeCode deeper true)
  else if ← nextMarks "?" then return .maybeBound (← traitBound deeper ⟨false, false⟩)
  else
    let first ← deeper.type true
    if ← nextMarks "," then
      let comma ← marks ","
      return .tuple (first.code ++ comma ++ (← commaList (typeCode deeper true)))
    else return .single first

/-- A type in parentheses, several, or a bound that others may be added to. -/
def parensType (deeper : DeeperReaders) (plus : Bool) : TokenReader TypeForm := do
  match ← inGroup .parens (parensContent deeper) with
  | .tuple code => return ⟨.other, [.parens code]⟩
  | .lifetimeBounds code => return ⟨.parens, [.parens code]⟩
  | .maybeBound code =>
    let more ← addedBounds deeper (← get).length [.parens code]
    return ⟨if more.length = 1 then .bound else .other, more⟩
  | .single type =>
    if plus && (← nextMarks "+") && [.name, .path, .bound].contains type.shape then
      return ⟨.other, ← addedBounds deeper (← get).length [.parens type.code]⟩
    else return ⟨.parens, [.parens type.code]⟩

/-- A type that a path stands for, and what may follow it: the body of a macro, or more
    bounds.  `binder` is what it holds for. -/
def pathType (deeper : DeeperReaders) (binder : List Code) (plus : Bool) :
    TokenReader TypeForm := do
  let qualified ← nextMarks "<"
  let p ← typePath deeper
  if qualified then
    return ⟨.other, p.code⟩
  else if (← nextMarks "!") && !(← nextMarks "!=") && p.plain then
    let mark ← marks "!"
    return ⟨.other, p.code ++ mark ++ (← anyGroup)⟩
  else if !binder.isEmpty || (plus && (← nextMarks "+")) then
    let first : Bound := ⟨true, binder ++ p.code⟩
    let all ←
      if plus then moreBounds deeper ⟨false, false⟩ (← get).length first else pure first
    return ⟨if all.code.length = first.code.length then .bound else .other, all.code⟩
  else return ⟨if p.single then .name else .path, p.code⟩

def nextTypePath : TokenReader Bool := do
  match ← get with
  | .word i :: _ =>
    return (← nextName) || (!i.raw && ["super", "self", "Self", "crate"].contains i.word)
  | tokens => return spells "::".toList tokens || spells ['<'] tokens

def nextFunction : TokenReader Bool := do
  return (← nextWord "fn") || (← nextWord "unsafe") || (← nextWord "extern")

def pointerRest (deeper : DeeperReaders) : TokenReader (List Code) := do
  let kind ← if ← nextWord "const" then word "const" else word "mut"
  return kind ++ (← typeCode deeper false)

def referenceRest (deeper : DeeperReaders) : TokenReader (List Code) := do
  let life ← if ← nextLifetime then lifetime else pure []
  let mutability ← wordIf "mut"
  return life ++ mutability ++ (← typeCode deeper false)

def arrayContent (deeper : DeeperReaders) : TokenReader (List Code) := do
  let element ← typeCode deeper true
  if ← nextMarks ";" then
    let gap ← marks ";"
    return element ++ gap ++ (← deeper.expression)
  else return element

def markedType (deeper : DeeperReaders) : TokenReader (List Code) := do
  if ← nextGroup .brackets then group .brackets (arrayContent deeper)
  else if ← nextMarks "*" then return (← marks "*") ++ (← pointerRest deeper)
  else if ← nextMarks "&" then return (← marks "&") ++ (← referenceRest deeper)
  else if (← nextMarks "!") && !(← nextMarks "!=") then marks "!"
  else if ← nextLifetime then bounds deeper ⟨false, false⟩ true
  else failure

/-- A type.  `plus` tells whether bounds may be added to it by plus signs. -/
def typeForm (deeper : DeeperReaders) (plus : Bool) : TokenReader TypeForm := do
  if ← nextWord "for" then
    let binder ← binderIf
    if ← nextFunction then return ⟨.other, binder ++ (← functionType deeper)⟩
    else if (← nextTypePath) && !(← nextMarks "::") && !(← nextMarks "<") then
      pathType deeper binder plus
    else failure
  else if ← nextGroup .parens then parensType deeper plus
  else if ← nextFunction then return ⟨.other, ← functionType deeper⟩
  else if ← nextTypePath then pathType deeper [] plus
  else if ← nextWord "dyn" then
    let mark ← word "dyn"
    let star ← marksIf "*"
    return ⟨.other, mark ++ star ++ (← bounds deeper ⟨false, false⟩ plus)⟩
  else if ← nextWord "impl" then
    return ⟨.other, (← word "impl") ++ (← bounds deeper ⟨true, true⟩ plus)⟩
  else if ← nextWord "_" then return ⟨.other, ← anyWord⟩
  else return ⟨.other, ← markedType deeper⟩

end TokenReader

end Protobuf
