import Protobuf.Source.CodePath
import Protobuf.Text.Split

/-! # Where types are found

A type of a schema lies in a module of the generated code or is found elsewhere.  Code in
one module refers to a type in another by going up to the module that both share and down
from there.

* `TypePath` and `TypeKind`.
* `RelativePath.between`: the way from a module to a name in another.
* `externPath?`: the longest name of the settings that a type or a package above it has.
-/

namespace Protobuf

inductive TypeKind
  | message
  | enumeration
  | mapEntry
deriving DecidableEq, Repr

inductive TypePath
  /-- In a module of the generated code, told by the names from the outermost one on. -/
  | generated (module : List Ident) (ident : Ident)
  /-- Elsewhere, under a path. -/
  | external (path : String)
  /-- Nowhere: the type is well known and is not to be generated. -/
  | suppressed
deriving DecidableEq, Repr

/-! ## Relative paths -/

structure RelativePath where
  up : Nat
  down : List Ident
  ident : Ident
deriving DecidableEq, Repr

namespace RelativePath

/-- The way from the module `source` to `ident` in the module `target`.  It goes up no
    further than it must. -/
def between : (source target : List Ident) → Ident → RelativePath
  | s :: source, t :: target, ident =>
    if s = t then between source target ident
    else ⟨(s :: source).length, t :: target, ident⟩
  | source, target, ident => ⟨source.length, target, ident⟩

/-- Where a way leads from a module, and `none` if it leaves the outermost one. -/
def follow (module : List Ident) (p : RelativePath) : Option (List Ident × Ident) :=
  if p.up ≤ module.length then some (module.take (module.length - p.up) ++ p.down, p.ident)
  else none

def checked (p : RelativePath) : Except GenerateError RelativePath := do
  let _ ← p.down.mapM Ident.checked
  let _ ← p.ident.checked
  return p

/-- The code of a way.  A name in the same module stands for itself, and a lone underscore
    there is no fault: in place of a type it leaves the type open. -/
def code (p : RelativePath) : Code :=
  if p.up = 0 ∧ p.down.isEmpty then .fixed p.ident.text
  else
    .sequence
      (List.replicate p.up (.fixed "super ::") ++
        (p.down.map fun module => .sequence [module, "::"]) ++ [.ident p.ident])

end RelativePath

/-! ## Paths of the settings -/

/-- The path of what lies below a package: modules for all parts of the name but the
    last, which is a type. -/
def belowPath (path : String) : List String → String
  | [] => path
  | [name] => path ++ "::" ++ typeWord name
  | part :: rest => belowPath (path ++ "::" ++ moduleWord part) rest

/-- The path of a type under the longest part of its name that has one.  `front` is the
    number of segments of the name to try first; shorter fronts follow. -/
def externPathWithin (paths : List (String × String)) (segments : List String) :
    (front : Nat) → Option String
  | 0 => none
  | front + 1 =>
    let name := ".".intercalate (segments.take (front + 1))
    if name = "" then none
    else
      match paths.find? (·.1 = name) with
      | some (_, path) => some (belowPath path (segments.drop (front + 1)))
      | none => externPathWithin paths segments front

def externPath? (paths : List (String × String)) (typeName : String) : Option String :=
  let segments := splitText '.' typeName
  externPathWithin paths segments segments.length

end Protobuf
