import Protobuf.Names.Table

/-! # References to types

A field refers to a message or an enum by its fully-qualified name.  In code it is a way
to where the type is found.

* `TypeRef`: the way, and its code.
* `NameTable.lookup`: a type has to be known, of the kind that the field has, and found
  somewhere.
* `NameTable.resolve` and `resolvePartial`.
-/

namespace Protobuf

inductive TypeRef
  /-- A type of the generated code, seen from a module of it. -/
  | relative (p : RelativePath)
  | external (path : Code)
  /-- The partial message of a message that is found elsewhere. -/
  | partialOf (path : Code)

def TypeRef.code : TypeRef → Code
  | relative p => p.code
  | external path => path
  | partialOf path => .sequence ["<", path, "as :: protoquill :: Message > :: Partial"]

namespace NameTable

def lookup (t : NameTable) (field typeName : String) (expected : TypeKind) :
    Except GenerateError TypePath :=
  match entryOf? typeName t.types with
  | some ⟨kind, path⟩ =>
    if kind ≠ expected then .error (.unresolvedType field typeName)
    else if path = .suppressed then
      .error (.unsupportedWellKnownType
        (String.ofList (typeName.toList.dropWhile (· = '.'))))
    else .ok path
  | none => .error (.unresolvedType field typeName)

def externalCode (typeName path : String) : Except GenerateError Code :=
  match CodePath.parse? path with
  | some code => .ok code
  | none => .error (.invalidExternPath typeName path)

def resolve (t : NameTable) (source : List Ident) (field typeName : String)
    (expected : TypeKind) : Except GenerateError TypeRef := do
  match ← t.lookup field typeName expected with
  | .generated module ident =>
    return .relative (← (RelativePath.between source module ident).checked)
  | .external path => return .external (← externalCode typeName path)
  | .suppressed => throw (.unresolvedType field typeName)

def resolvePartial (t : NameTable) (source : List Ident) (field typeName : String) :
    Except GenerateError TypeRef := do
  match ← t.lookup field typeName .message with
  | .generated module _ =>
    match entryOf? typeName t.messages with
    | some names =>
      return .relative (← (RelativePath.between source module names.partialIdent).checked)
    | none => throw (.unresolvedType field typeName)
  | .external path => return .partialOf (← externalCode typeName path)
  | .suppressed => throw (.unresolvedType field typeName)

end NameTable

end Protobuf
