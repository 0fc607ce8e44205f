import Protobuf.Generate.EnumCode
import Protobuf.Generate.Items
import Protobuf.Generate.JsonCode
import Protobuf.Generate.StructCode

/-! # Generated files

The code of a schema: a file for each package, with the items of all files of that
package, and a file that declares the modules.

* `Item.code`: the code of an item.
* `generatedModules`: the items of each module.
* `DescriptorSet.generate`: the generated files.
-/

namespace Protobuf

structure GeneratedFile where
  name : String
  content : String
deriving DecidableEq, Repr

/-! ## The code of items -/

def MessageModel.code (m : MessageModel) : Code :=
  .sequence [m.structCode, m.messageCode, m.wireCode, m.jsonCode]

mutual

def Item.code : Item → Code
  | .message m => m.code
  | .oneof o => o.enumCode
  | .enumeration e => e.code
  | .module ident items => .sequence ["pub mod", ident, .braces (itemsCode items)]

def itemsCode : List Item → List Code
  | [] => []
  | i :: rest => i.code :: itemsCode rest

end

/-! ## Modules -/

/-- Whether code is generated for a file.  `targets` are the names of the files that were
    asked for; all are if there are none. -/
def Settings.generates (settings : Settings) (targets : Option (List String)) (name : String)
    (f : FileDescriptor) : Bool :=
  (match targets with
    | some targets => targets.contains name
    | none => true) &&
  !(f.isWellKnown && !settings.emitWellKnownTypes)

def addToModule (name : String) (items : List Item) (modules : List (String × List Item)) :
    List (String × List Item) :=
  insertByKey name ((entryOf? name modules).getD [] ++ items) modules

def generatedModules (settings : Settings) (targets : Option (List String)) (t : NameTable)
    (files : List FileDescriptor) : Except GenerateError (List (String × List Item)) :=
  files.foldlM
    (fun modules f => do
      let name ← required f.name
      if settings.generates targets name f then
        f.check
        match ← FileItems.items ⟨t, f⟩ with
        | [] => return modules
        | items => return addToModule f.moduleIdent.text items modules
      else return modules)
    []

/-! ## Files -/

def header : String := "// This file is @generated by protoquill-build.\n\n"

def generatedFile (name : String) (code : Code) : Except GenerateError GeneratedFile :=
  if code.hasStrayWord then .error .unparsableCode
  else .ok ⟨name, header ++ code.render⟩

def moduleDeclaration (name : String) : Except GenerateError Code := do
  let ident ← Ident.checked ⟨name, false⟩
  return .sequence
    [ "# [allow (clippy :: all , dead_code , non_camel_case_types , non_snake_case ,",
      "unused_variables)] pub mod",
      ident,
      .braces ["include !", .parens [.literal (name ++ ".rs")], ";"] ]

def moduleFiles (modules : List (String × List Item)) :
    Except GenerateError (List GeneratedFile) := do
  let files ← modules.mapM fun (name, items) =>
    generatedFile (name ++ ".rs") (.sequence (itemsCode items))
  let declarations ← modules.mapM fun (name, _) => moduleDeclaration name
  let index ← generatedFile "mod.rs" (.sequence declarations)
  return files ++ [index]

def DescriptorSet.generate (s : DescriptorSet) (settings : Settings)
    (targets : Option (List String)) : Except GenerateError (List GeneratedFile) := do
  let t ← NameTable.ofFiles settings s
  let modules ← generatedModules settings targets t s.files
  moduleFiles modules

end Protobuf
