import Protobuf.Generate.Error
import Protobuf.Text.Blank
import Protobuf.Text.Split

/-! # Settings of the generator

What a caller may choose.  A schema compiler that calls the generator passes the choices
on as one text, options with commas between them.

* `Settings`, `Settings.addExternPath`.
* `Settings.ofParameter`: the settings that a text spells; later options win.
-/

namespace Protobuf

structure Settings where
  /-- Where types are found that are not to be generated: the fully-qualified name of a
      type or package, and the path that stands for it in code.  The names ascend. -/
  externPaths : List (String × String) := []
  /-- Whether the code is left as it was put together. -/
  skipFormat : Bool := false
  emitWellKnownTypes : Bool := false
deriving DecidableEq, Repr

/-- Puts an entry into a list whose keys ascend, in place of one with its key. -/
def insertByKey {α : Type} (key : String) (value : α) : List (String × α) → List (String × α)
  | [] => [(key, value)]
  | (k, v) :: rest =>
    if k < key then (k, v) :: insertByKey key value rest
    else if k = key then (key, value) :: rest
    else (key, value) :: (k, v) :: rest

/-- An entry that was put into a list is found there. -/
theorem mem_insertByKey {α : Type} (key : String) (value : α) (entries : List (String × α)) :
    (key, value) ∈ insertByKey key value entries := by
  induction entries with
  | nil => simp [insertByKey]
  | cons entry rest ih =>
    unfold insertByKey
    split
    · exact List.mem_cons_of_mem _ ih
    · split <;> simp

namespace Settings

def addExternPath (s : Settings) (protoPath codePath : String) : Settings :=
  { s with externPaths := insertByKey protoPath codePath s.externPaths }

/-- The key and the value of an option; one without an equals sign has no value. -/
def optionParts (option : String) : String × Option String :=
  let chars := option.toList
  let key := String.ofList (chars.takeWhile (· ≠ '='))
  match chars.dropWhile (· ≠ '=') with
  | [] => (key, none)
  | _ :: value => (key, some (String.ofList value))

def addOption (s : Settings) (option : String) : Except GenerateError Settings :=
  match optionParts option with
  | ("target", some "rust") => .ok s
  | ("target", some other) => .error (.unsupportedTarget other)
  | ("emit_well_known_types", none) | ("emit_well_known_types", some "true") =>
    .ok { s with emitWellKnownTypes := true }
  | ("emit_well_known_types", some "false") => .ok { s with emitWellKnownTypes := false }
  | ("skip_format", none) | ("skip_format", some "true") => .ok { s with skipFormat := true }
  | ("extern_path", some mapping) =>
    match optionParts mapping with
    | (protoPath, some codePath) => .ok (s.addExternPath protoPath codePath)
    | (_, none) => .error (.invalidParameter option)
  | _ => .error (.invalidParameter option)

def ofParameter (parameter : String) : Except GenerateError Settings :=
  (((splitText ',' parameter).map trimmed).filter (· ≠ "")).foldlM addOption {}

end Settings

end Protobuf
