import Protobuf.Generate.FieldModel

/-! # Messages of generated code

A message of a schema with everything settled that its code depends on.

* `OneofModel` and `MessageModel`.
* `MessageModel.ofDescriptor`: the model of a message that is generated.
* `MessageModel.places`: its fields and oneof members in the order of their numbers, which
  is the order in which they are written.
-/

namespace Protobuf

/-- A member of a oneof.  The type of its payload is told from two modules: that of the
    message in `field`, and that of the oneof in `inner`. -/
structure VariantModel where
  ident : Ident
  field : FieldModel
  inner : FieldModel

structure OneofModel where
  name : String
  field : Ident
  module : Ident
  ident : Ident
  variants : List VariantModel
  doc : List String := []

structure MessageModel where
  typeName : String
  ident : Ident
  partialIdent : Ident
  /-- The fields that are no oneof members, in the order of declaration. -/
  fields : List FieldModel
  oneofs : List OneofModel
  doc : List String := []

/-- A place of a message that holds the value of a field. -/
inductive FieldPlace
  | field (f : FieldModel)
  | member (o : OneofModel) (v : VariantModel)

def FieldPlace.number : FieldPlace → UInt32
  | field f => f.number
  | member _ v => v.field.number

/-- The fields and oneof members of a message, their numbers ascending. -/
def MessageModel.places (m : MessageModel) : List FieldPlace :=
  let members := m.oneofs.flatMap fun o => o.variants.map (FieldPlace.member o)
  (m.fields.map FieldPlace.field ++ members).mergeSort fun a b => a.number ≤ b.number

structure MessageContext where
  table : NameTable
  file : FileDescriptor
  typeName : String
  module : List Ident
  path : ElementPath

namespace MessageContext

def fieldDoc (ctx : MessageContext) (index : Nat) : List String :=
  ctx.file.docOf (ctx.path.field index)

def fieldModels (ctx : MessageContext) (names : MessageNames) (fields : List FieldDescriptor) :
    Except GenerateError (List FieldModel) :=
  fields.zipIdx.foldlM
    (fun models (f, index) => do
      if f.isOneofMember then return models
      match f.number.bind (entryOf? · names.fields) with
      | none => return models
      | some ident =>
        let model ← FieldModel.ofDescriptor ctx.table ctx.typeName ctx.module f ident false
        return models ++ [{ model with doc := ctx.fieldDoc index }])
    []

/-- The position of the oneof member with a number among the fields of a message. -/
def memberIndex? (fields : List FieldDescriptor) (number : UInt32) : Option Nat :=
  fields.findIdx? fun f => f.isOneofMember && f.number = some number.toInt32

def oneofModel (ctx : MessageContext) (module : Ident) (fields : List FieldDescriptor)
    (g : OneofGroup) (names : OneofNames) : Except GenerateError OneofModel := do
  let name ← required g.oneof.name
  let module ← module.checked
  let ident ← names.ident.checked
  let variants ← g.members.foldlM
    (fun variants f => do
      match entryOf? (f.number.getD 0) names.variants with
      | none => return variants
      | some variant =>
        let fieldIdent := Ident.ofField (← required f.name)
        let field ← FieldModel.ofDescriptor ctx.table ctx.typeName ctx.module f fieldIdent true
        let inner ←
          FieldModel.ofDescriptor ctx.table ctx.typeName (ctx.module ++ [module]) f fieldIdent true
        let doc := ((memberIndex? fields field.number).map ctx.fieldDoc).getD []
        return variants ++ [⟨← variant.checked, { field with doc }, inner⟩])
    []
  let field ← names.field.checked
  return { name, field, module, ident, variants, doc := ctx.file.docOf (ctx.path.oneof g.index) }

def messageModel (ctx : MessageContext) (m : MessageDescriptor) :
    Except GenerateError MessageModel := do
  match entryOf? ctx.typeName ctx.table.messages with
  | none => throw (.unresolvedType "" ctx.typeName)
  | some names =>
    let fields ← ctx.fieldModels names m.fields
    let oneofs ← m.oneofGroups.foldlM
      (fun oneofs g => do
        match entryOf? g.index names.oneofs with
        | none => return oneofs
        | some oneofNames =>
          return oneofs ++ [← ctx.oneofModel names.module m.fields g oneofNames])
      []
    return {
      typeName := ctx.typeName
      ident := ← names.ident.checked
      partialIdent := ← names.partialIdent.checked
      fields
      oneofs
      doc := ctx.file.docOf ctx.path }

end MessageContext

end Protobuf
