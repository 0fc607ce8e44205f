import Protobuf.Generate.Settings
import Protobuf.Names.Boxing
import Protobuf.Names.Scope
import Protobuf.Names.TypePath

/-! # The table of names

Every identifier that generated code declares is settled before any code is written.
Each module is a scope of its own: messages, enums, partial messages and the modules of
messages claim their identifiers in this order, and the oneofs of a message theirs in its
module once everything inside it is named.

* `MessageDescriptor.oneofGroups`: the oneofs of a message and their members.
* `messageNames` and `enumNames`: the identifiers inside a message and an enum.
* `NameTable.ofFiles`: the table of a schema.
-/

namespace Protobuf

structure OneofGroup where
  index : Nat
  oneof : OneofDescriptor
  members : List FieldDescriptor
deriving DecidableEq, Repr

/-- The oneofs of a message that have members, each with its members in the order of
    declaration. -/
def MessageDescriptor.oneofGroups (m : MessageDescriptor) : List OneofGroup :=
  (m.oneofs.zipIdx.map fun (oneof, index) =>
    { index
      oneof
      members := m.fields.filter fun f =>
        f.isOneofMember && f.oneofIndex = some (Int32.ofNat index) : OneofGroup }).filter
    fun g => !g.members.isEmpty

/-! ## Names inside messages and enums -/

structure OneofNames where
  field : Ident
  ident : Ident
  variants : List (Int32 × Ident)
deriving DecidableEq, Repr

/-- The identifiers of a message.  `fields` are those that are no oneof members, by
    number; `oneofs` go by their positions. -/
structure MessageNames where
  ident : Ident
  partialIdent : Ident
  /-- The module that holds what is declared inside the message, and its oneofs. -/
  module : Ident
  fields : List (Int32 × Ident)
  oneofs : List (Nat × OneofNames)
deriving DecidableEq, Repr

/-- The identifier of a value of an enum.  A value that is not canonical is an alias: it
    has the identifier of the first value with its number. -/
structure EnumValueNames where
  ident : Ident
  canonical : Bool
deriving DecidableEq, Repr

structure EnumNames where
  ident : Ident
  values : List EnumValueNames
deriving DecidableEq, Repr

def entryOf? {κ α : Type} [DecidableEq κ] (key : κ) (entries : List (κ × α)) : Option α :=
  (entries.find? (·.1 = key)).map (·.2)

def required (name : Option String) : Except GenerateError String :=
  match name with
  | some name => .ok name
  | none => .error .missingName

def FieldDescriptor.nameAndNumber (f : FieldDescriptor) :
    Except GenerateError (String × Int32) := do
  let name ← required f.name
  match f.number with
  | some number => return (name, number)
  | none => throw (.missingFieldNumber name)

/-- The first number of a list that is in `seen` or comes before in the list. -/
def repeatedNumber? (seen : List Int32) : List Int32 → Option Int32
  | [] => none
  | n :: rest => if seen.contains n then some n else repeatedNumber? (n :: seen) rest

def nameFields (message : String) (fields : List FieldDescriptor) :
    Except GenerateError (List (Int32 × Ident) × Scope) :=
  fields.foldlM
    (fun (named, scope) f => do
      let (name, number) ← f.nameAndNumber
      let (ident, scope) := Scope.claim scope (.ofField name)
      if (entryOf? number named).isSome then throw (.duplicateFieldNumber message number)
      return (named ++ [(number, ident)], scope))
    ([], {})

/-- Names the variants of a oneof.  `fields` are the numbers that are used already. -/
def nameVariants (message : String) (fields : List (Int32 × Ident))
    (members : List FieldDescriptor) : Except GenerateError (List (Int32 × Ident)) := do
  let (variants, _) ← members.foldlM
    (fun (variants, scope) f => do
      let (name, number) ← f.nameAndNumber
      if (entryOf? number fields).isSome || (entryOf? number variants).isSome then
        throw (.duplicateFieldNumber message number)
      let (ident, scope) := Scope.claim scope (.ofType (pascalCase name))
      return (variants ++ [(number, ident)], scope))
    (([] : List (Int32 × Ident)), ({} : Scope))
  return variants

/-- Names the oneofs of a message.  Their fields are claimed in the scope of the struct,
    their enums in that of the message's module. -/
def nameOneofs (message : String) (fields : List (Int32 × Ident)) (struct module : Scope)
    (groups : List OneofGroup) : Except GenerateError (List (Nat × OneofNames)) := do
  let (oneofs, _, _) ← groups.foldlM
    (fun (oneofs, struct, module) g => do
      let name ← required g.oneof.name
      let variants ← nameVariants message fields g.members
      let (field, struct) := Scope.claim struct (.ofField name)
      let (ident, module) := Scope.claim module (.ofType (pascalCase name))
      return (oneofs ++ [(g.index, ⟨field, ident, variants⟩)], struct, module))
    (([] : List (Nat × OneofNames)), struct, module)
  return oneofs

/-- The identifiers of a message itself, which are claimed where it is declared. -/
structure MessageIdents where
  ident : Ident
  partialIdent : Ident
  module : Ident
deriving DecidableEq, Repr

/-- The identifiers of a message.  No number may be used twice; of those that two oneofs
    share, the least of the first oneof that shares one is reported. -/
def messageNames (m : MessageDescriptor) (idents : MessageIdents) (module : Scope) :
    Except GenerateError MessageNames := do
  let message := m.name.getD ""
  let (fields, struct) ← nameFields message (m.fields.filter (!·.isOneofMember))
  let oneofs ← nameOneofs message fields struct module m.oneofGroups
  let numbers := oneofs.flatMap fun (_, names) =>
    (names.variants.map (·.1)).mergeSort fun a b => a ≤ b
  match repeatedNumber? [] numbers with
  | some number => throw (.duplicateFieldNumber message number)
  | none => return ⟨idents.ident, idents.partialIdent, idents.module, fields, oneofs⟩

/-- The identifiers of an enum.  Values with one number share a variant. -/
def enumNames (ident : Ident) (e : EnumDescriptor) : Except GenerateError EnumNames := do
  let (values, _, _) ← e.values.foldlM
    (fun (values, variants, scope) v => do
      let name ← required v.name
      let number ←
        match v.number with
        | some number => pure number
        | none => throw (.missingFieldNumber name)
      match entryOf? number variants with
      | some variant => return (values ++ [⟨variant, false⟩], variants, scope)
      | none =>
        let (variant, scope) := Scope.claim scope (.ofType (variantCase name))
        return (values ++ [⟨variant, true⟩], variants ++ [(number, variant)], scope))
    (([] : List EnumValueNames), ([] : List (Int32 × Ident)), ({} : Scope))
  return ⟨ident, values⟩

/-! ## Modules -/

structure ModuleIdents where
  messages : List MessageIdents
  enums : List Ident
deriving DecidableEq, Repr

def claimModule (messages enums : List String) (scope : Scope) : ModuleIdents × Scope :=
  let (idents, scope) := scope.claimAll (messages.map .ofType)
  let (enumIdents, scope) := scope.claimAll (enums.map .ofType)
  let (partials, scope) := scope.claimAll (idents.map fun i => .ofText (i.word ++ "Partial"))
  let (modules, scope) := scope.claimAll (messages.map .ofModule)
  (⟨(idents.zip (partials.zip modules)).map fun (i, p, m) => ⟨i, p, m⟩, enumIdents⟩, scope)

/-- The parts of a path to a file without blanks: the separators and the dots for the
    same place are left out. -/
def pathParts (path : String) : List String :=
  (splitText '/' path).filter fun part => part ≠ "" && part ≠ "."

/-- The name of a file without its folders and its last extension.  A dot in front does
    not begin an extension. -/
def fileStem? (path : String) : Option String :=
  match (pathParts path).getLast? with
  | none => none
  | some ".." => none
  | some name =>
    let behind := (name.toList.reverse.dropWhile (· ≠ '.')).drop 1
    some (if behind.isEmpty then name else String.ofList behind.reverse)

/-- The module of a file: its package or, if it has none, the stem of its name, with
    underscores for what is neither an ASCII letter nor a digit. -/
def FileDescriptor.moduleIdent (f : FileDescriptor) : Ident :=
  let name :=
    if f.packageName = "" then (fileStem? (f.name.getD "unknown")).getD "unknown"
    else f.packageName
  let word := String.ofList (name.toList.map fun c => if c.isAlphanum then c else '_')
  ⟨unreserved (undigited word), false⟩

/-! ## The table -/

structure TypeInfo where
  kind : TypeKind
  path : TypePath
deriving DecidableEq, Repr

structure MapEntry where
  key : FieldDescriptor
  value : FieldDescriptor
deriving DecidableEq, Repr

/-- What is known about the types of a schema, by their fully-qualified names.  Of several
    entries for a name the first one counts, which is the one added last. -/
structure NameTable where
  types : List (String × TypeInfo) := []
  messages : List (String × MessageNames) := []
  enums : List (String × EnumNames) := []
  mapEntries : List (String × MapEntry) := []
  /-- The fields that are boxed, by the names of message and field. -/
  boxed : List (String × String) := []
deriving Repr

/-- What the files of a schema have in common while they are entered, and what the
    settings say about one of them. -/
structure FileContext where
  settings : Settings
  suppressed : Bool

def wellKnownPackage : String := "google.protobuf"

def FileDescriptor.isWellKnown (f : FileDescriptor) : Bool := f.packageName = wellKnownPackage

def runtimeTypes : List (String × String) :=
  [(".google.protobuf.Timestamp", "::protoquill::wkt::Timestamp"),
    (".google.protobuf.Duration", "::protoquill::wkt::Duration")]

/-- Where a type is found.  The runtime library goes before the settings. -/
def FileContext.pathOf (ctx : FileContext) (typeName : String) (module : List Ident)
    (ident : Ident) : TypePath :=
  match entryOf? typeName runtimeTypes with
  | some path => .external path
  | none =>
    match externPath? ctx.settings.externPaths typeName with
    | some path => .external path
    | none => if ctx.suppressed then .suppressed else .generated module ident

def FieldKind.isMapKey : FieldKind → Bool
  | .scalar .double | .scalar .float | .scalar .bytes => false
  | .scalar _ => true
  | _ => false

namespace NameTable

/-- Enters the map entries among messages.  An entry has a key and a value field and no
    other. -/
def addMapEntries (scope : String) (messages : List MessageDescriptor) (t : NameTable) :
    Except GenerateError NameTable :=
  (messages.filter (·.isMapEntry)).foldlM
    (fun t m => do
      let typeName := scope ++ (← required m.name)
      match m.fields.find? (·.number = some 1), m.fields.find? (·.number = some 2) with
      | some key, some value =>
        if (key.kind?.map FieldKind.isMapKey).getD false && m.fields.length = 2 then
          return { t with
            types := (typeName, ⟨.mapEntry, .suppressed⟩) :: t.types
            mapEntries := (typeName, ⟨key, value⟩) :: t.mapEntries }
        else throw (.invalidMapEntry typeName)
      | _, _ => throw (.invalidMapEntry typeName))
    t

def addEnums (ctx : FileContext) (scope : String) (module : List Ident)
    (enums : List (EnumDescriptor × Ident)) (t : NameTable) : Except GenerateError NameTable :=
  enums.foldlM
    (fun t (e, ident) => do
      let typeName := scope ++ (← required e.name)
      let names ← enumNames ident e
      return { t with
        types := (typeName, ⟨.enumeration, ctx.pathOf typeName module ident⟩) :: t.types
        enums := (typeName, names) :: t.enums })
    t

/-- Enters messages and what is declared inside them.  `idents` are the identifiers of
    those that are no map entries, in order. -/
def addMessages (ctx : FileContext) :
    (messages : List MessageDescriptor) → (idents : List MessageIdents) → (scope : String) →
      (module : List Ident) → NameTable → Except GenerateError NameTable
  | ⟨name, fields, nestedTypes, enumTypes, options, oneofs⟩ :: rest, idents, scope, module, t =>
    let m : MessageDescriptor := ⟨name, fields, nestedTypes, enumTypes, options, oneofs⟩
    if m.isMapEntry then addMessages ctx rest idents scope module t
    else
      match idents with
      | [] => .ok t
      | i :: idents => do
        let typeName := scope ++ (← required name)
        let t := { t with
          types := (typeName, ⟨.message, ctx.pathOf typeName module i.ident⟩) :: t.types }
        let inner := typeName ++ "."
        let innerModule := module ++ [i.module]
        let names ← (nestedTypes.filter (!·.isMapEntry)).mapM (required ·.name)
        let enumNames ← enumTypes.mapM (required ·.name)
        let (claimed, innerScope) := claimModule names enumNames {}
        let t ← addMapEntries inner nestedTypes t
        let t ← addEnums ctx inner innerModule (enumTypes.zip claimed.enums) t
        let t ← addMessages ctx nestedTypes claimed.messages inner innerModule t
        let named ← messageNames m i innerScope
        addMessages ctx rest idents scope module
          { t with messages := (typeName, named) :: t.messages }
  | [], _, _, _, t => .ok t

def addFile (settings : Settings) (f : FileDescriptor) (scope : Scope) (t : NameTable) :
    Except GenerateError (NameTable × Scope) := do
  let _ ← required f.name
  let ctx : FileContext := ⟨settings, f.isWellKnown && !settings.emitWellKnownTypes⟩
  let module := [f.moduleIdent]
  let names ← (f.messageTypes.filter (!·.isMapEntry)).mapM (required ·.name)
  let enumNames ← f.enumTypes.mapM (required ·.name)
  let (claimed, scope) := claimModule names enumNames scope
  let t ← addMapEntries f.scope f.messageTypes t
  let t ← addEnums ctx f.scope module (f.enumTypes.zip claimed.enums) t
  let t ← addMessages ctx f.messageTypes claimed.messages f.scope module t
  return (t, scope)

/-- Enters files.  `scopes` are the scopes of the modules met before. -/
def addFiles (settings : Settings) :
    List FileDescriptor → List (Ident × Scope) → NameTable → Except GenerateError NameTable
  | [], _, t => .ok t
  | f :: rest, scopes, t => do
    let scope := (entryOf? f.moduleIdent scopes).getD {}
    let (t, scope) ← addFile settings f scope t
    addFiles settings rest ((f.moduleIdent, scope) :: scopes) t

/-- Refuses settings that name a path that is none.  Names begin with a dot. -/
def checkPaths (settings : Settings) : Except GenerateError Unit :=
  settings.externPaths.forM fun (protoPath, codePath) =>
    if protoPath.toList.head? = some '.' && (CodePath.parse? codePath).isSome then .ok ()
    else .error (.invalidExternPath protoPath codePath)

def ofFiles (settings : Settings) (s : DescriptorSet) : Except GenerateError NameTable := do
  checkPaths settings
  let t ← addFiles settings s.files [] {}
  return { t with boxed := s.boxedFields }

end NameTable

end Protobuf
