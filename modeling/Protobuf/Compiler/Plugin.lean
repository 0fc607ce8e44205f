import Protobuf.Descriptor.Wire
import Protobuf.Generate.Files

/-! # The plugin protocol

A schema compiler that calls the generator as a plugin sends a request, with the files to
generate, the settings as a text and the descriptors of all files, and reads a response,
with the generated files or what is wrong.

* `PluginRequest` and `PluginResponse`, with `encode` and `decode` for each.
* `PluginRequest.respond`: the response to a request, which there always is.
-/

namespace Protobuf

structure PluginRequest where
  filesToGenerate : List String := []
  parameter : Option String := none
  files : List FileDescriptor := []

namespace PluginRequest

def encode (r : PluginRequest) : Bytes :=
  repeatedRecords 1 .string r.filesToGenerate ++ optionalRecord 2 .string r.parameter ++
    r.files.flatMap fun f => nestedRecord 15 f.encode

def decode (bytes : Bytes) : Except DecodeError PluginRequest :=
  Record.fold
    (fun record r =>
      match record.number with
      | 1 => return { r with filesToGenerate := r.filesToGenerate ++ [← record.text] }
      | 2 => return { r with parameter := some (← record.text) }
      | 15 =>
        return { r with files := r.files ++ [← record.nested (FileDescriptor.read nestingLimit)] }
      | _ => record.ignore r)
    bytes {}

end PluginRequest

structure PluginResponse where
  error : Option String := none
  /-- The features of schemas that are supported, a bit for each. -/
  supportedFeatures : UInt64 := 0
  files : List GeneratedFile := []
deriving DecidableEq, Repr

namespace PluginResponse

def encodeFile (f : GeneratedFile) : Bytes :=
  optionalRecord 1 .string (some f.name) ++ optionalRecord 15 .string (some f.content)

def encode (r : PluginResponse) : Bytes :=
  optionalRecord 1 .string r.error ++
    optionalRecord 2 .uint64 (if r.supportedFeatures = 0 then none else some r.supportedFeatures) ++
    r.files.flatMap fun f => nestedRecord 15 (encodeFile f)

def readFile : (levels : Nat) → Bytes → Except DecodeError GeneratedFile :=
  readNested ⟨"", ""⟩ fun _ record f =>
    match record.number with
    | 1 => return { f with name := ← record.text }
    | 15 => return { f with content := ← record.text }
    | _ => record.ignore f

def decode (bytes : Bytes) : Except DecodeError PluginResponse :=
  Record.fold
    (fun record r =>
      match record.number with
      | 1 => return { r with error := some (← record.text) }
      | 2 => return { r with supportedFeatures := ← record.scalar .uint64 }
      | 15 => return { r with files := r.files ++ [← record.nested (readFile nestingLimit)] }
      | _ => record.ignore r)
    bytes {}

def optionalFields : UInt64 := 1

def ofError (e : GenerateError) : PluginResponse :=
  { error := some e.message, supportedFeatures := optionalFields }

end PluginResponse

def PluginRequest.generate (r : PluginRequest) : Except GenerateError (List GeneratedFile) := do
  let settings ← Settings.ofParameter (r.parameter.getD "")
  DescriptorSet.generate ⟨r.files⟩ settings (some r.filesToGenerate)

def PluginRequest.respond (r : PluginRequest) : PluginResponse :=
  match r.generate with
  | .ok files => { supportedFeatures := PluginResponse.optionalFields, files }
  | .error e => .ofError e

end Protobuf
