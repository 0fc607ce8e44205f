import Protobuf.Generate.DocComment
import Protobuf.Names.Table

/-! # Enums of generated code

An enum of a schema with everything settled that its code depends on.

* `EnumModel.ofDescriptor`: the model of an enum.
* `EnumModel.variants`: its values without aliases, which share the variant of another.
-/

namespace Protobuf

/-- A value of an enum.  One that is not canonical is an alias for a value before it. -/
structure EnumValueModel where
  name : String
  number : Int32
  ident : Ident
  canonical : Bool
  doc : List String := []

structure EnumModel where
  typeName : String
  ident : Ident
  values : List EnumValueModel
  doc : List String := []

namespace EnumModel

def variants (e : EnumModel) : List EnumValueModel := e.values.filter (·.canonical)

/-- The value that stands for "not set": zero or, in an enum without it, the first one. -/
def default? (e : EnumModel) : Option EnumValueModel :=
  (e.variants.find? (·.number = 0)).or e.variants.head?

def ofDescriptor (file : FileDescriptor) (typeName : String) (path : ElementPath)
    (e : EnumDescriptor) (names : EnumNames) : Except GenerateError EnumModel := do
  let ident ← names.ident.checked
  let values ← (e.values.zip names.values).zipIdx.mapM fun ((v, named), index) => do
    let name ← required v.name
    match v.number with
    | none => throw (.missingFieldNumber name)
    | some number =>
      return {
        name
        number
        ident := ← named.ident.checked
        canonical := named.canonical
        doc := file.docOf (path.enumValue index) : EnumValueModel }
  return { typeName, ident, values, doc := file.docOf path }

end EnumModel

end Protobuf
