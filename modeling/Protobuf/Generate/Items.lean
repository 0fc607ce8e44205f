import Protobuf.Generate.EnumModel
import Protobuf.Generate.MessageModel

/-! # Items of generated modules

What a file of a schema declares, as items of modules: messages, oneofs and enums, and for
each message a module with what is declared inside it.  Types that are found elsewhere
make no items, but what is declared inside them may.

* `Item`.
* `FileDescriptor.check`: the file has to be written in a syntax that code is generated
  for.
* `FileItems.items`: the items of a file, its enums before its messages.
-/

namespace Protobuf

inductive Item
  | message (m : MessageModel)
  | oneof (o : OneofModel)
  | enumeration (e : EnumModel)
  | module (ident : Ident) (items : List Item)

/-! ## Files that code is generated for -/

def FieldDescriptor.check (file : String) (f : FieldDescriptor) : Except GenerateError Unit :=
  if f.cardinality = .required then .error (.proto2Unsupported file "required fields")
  else if f.defaultValue.isSome then .error (.proto2Unsupported file "default values")
  else if f.kind? = some .group then .error (.groupsUnsupported (f.name.getD ""))
  else .ok ()

mutual

/-- Refuses a message with such a field in it or in a message that is declared inside. -/
def MessageDescriptor.check (file : String) : MessageDescriptor → Except GenerateError Unit
  | ⟨_, fields, nestedTypes, _, _, _⟩ => do
    fields.forM (·.check file)
    checkMessages file nestedTypes

def checkMessages (file : String) : List MessageDescriptor → Except GenerateError Unit
  | [] => .ok ()
  | m :: rest => do
    m.check file
    checkMessages file rest

end

def FileDescriptor.check (f : FileDescriptor) : Except GenerateError Unit :=
  let file := f.name.getD ""
  if f.isProto3 then checkMessages file f.messageTypes
  else .error (.proto2Unsupported file "proto2 syntax")

/-! ## The items of a file -/

structure FileItems where
  table : NameTable
  file : FileDescriptor

def NameTable.isGenerated (t : NameTable) (typeName : String) : Bool :=
  match entryOf? typeName t.types with
  | some ⟨_, .generated _ _⟩ => true
  | _ => false

namespace FileItems

def enums (fi : FileItems) (scope : String) (path : Nat → ElementPath)
    (enums : List EnumDescriptor) : Except GenerateError (List Item) :=
  enums.zipIdx.foldlM
    (fun items (e, index) => do
      let typeName := scope ++ (← required e.name)
      match entryOf? typeName fi.table.enums with
      | some names =>
        if fi.table.isGenerated typeName then
          let model ← EnumModel.ofDescriptor fi.file typeName (path index) e names
          return items ++ [.enumeration model]
        else return items
      | none => return items)
    []

def model? (fi : FileItems) (typeName : String) (module : List Ident) (path : ElementPath)
    (m : MessageDescriptor) : Except GenerateError (Option MessageModel) :=
  if fi.table.isGenerated typeName then do
    let model ← MessageContext.messageModel ⟨fi.table, fi.file, typeName, module, path⟩ m
    return some model
  else return none

mutual

/-- The items of a message.  What the table does not have as a message has none. -/
def message (fi : FileItems) (typeName : String) (module : List Ident) (path : ElementPath) :
    MessageDescriptor → Except GenerateError (List Item)
  | ⟨name, fields, nestedTypes, enumTypes, options, oneofs⟩ =>
    let m : MessageDescriptor := ⟨name, fields, nestedTypes, enumTypes, options, oneofs⟩
    match entryOf? typeName fi.table.messages with
    | none => .ok []
    | some names => do
      let model ← fi.model? typeName module path m
      let own := model.toList.map Item.message
      let oneofItems := model.toList.flatMap fun model => model.oneofs.map Item.oneof
      let enumItems ← fi.enums (typeName ++ ".") path.nestedEnum enumTypes
      let messageItems ← nested fi (typeName ++ ".") (module ++ [names.module]) path 0 nestedTypes
      match oneofItems ++ enumItems ++ messageItems with
      | [] => return own
      | inner => return own ++ [.module (← names.module.checked) inner]

/-- The items of the messages that are declared inside one, from a position on.  Map
    entries have none. -/
def nested (fi : FileItems) (scope : String) (module : List Ident) (path : ElementPath)
    (index : Nat) : List MessageDescriptor → Except GenerateError (List Item)
  | [] => .ok []
  | m :: rest => do
    if m.isMapEntry then nested fi scope module path (index + 1) rest
    else
      let typeName := scope ++ (← required m.name)
      let items ← message fi typeName module (path.nestedMessage index) m
      return items ++ (← nested fi scope module path (index + 1) rest)

end

def items (fi : FileItems) : Except GenerateError (List Item) := do
  let f := fi.file
  let enumItems ← fi.enums f.scope ElementPath.enumeration f.enumTypes
  let messageItems ← f.messageTypes.zipIdx.foldlM
    (fun items (m, index) => do
      let typeName := f.scope ++ (← required m.name)
      return items ++ (← message fi typeName [f.moduleIdent] (ElementPath.message index) m))
    []
  return enumItems ++ messageItems

end FileItems

end Protobuf
