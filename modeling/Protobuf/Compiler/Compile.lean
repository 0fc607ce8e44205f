import Protobuf.Descriptor.Wire
import Protobuf.Generate.Files

/-! # Compiling schema files

From schema files, or from descriptors that were made of them before, to files of code in
a folder.  What lies outside is told by `Surroundings`: variables, files, and what a
schema compiler does when it is run.

* `Surroundings.findCompiler`: a path in the settings goes before the variable, and the
  variable before a search.
* `compilerArguments`: what the schema compiler is told.
* `compileSchema` and `compileDescriptors`: what is run, saved and generated.
-/

namespace Protobuf

/-- What a run of a schema compiler comes to.  `descriptors` is what it wrote to the file
    that it was told to write to, if it did. -/
structure CompilerRun where
  succeeded : Bool
  stdout : String := ""
  stderr : String := ""
  descriptors : Option Bytes := none
deriving DecidableEq, Repr

structure Surroundings where
  /-- The output folder that the build tool names. -/
  outDir : Option String := none
  /-- The schema compiler that a variable names. -/
  compilerVariable : Option String := none
  /-- The schema compiler that a search of the usual folders finds. -/
  compilerOnPath : Option String := none
  /-- A file that the schema compiler may write to. -/
  scratchFile : String
  isFile : String → Bool
  contentsOf : String → Option Bytes
  /-- Runs a program with arguments; `none` if there is no such program. -/
  run : String → List String → Option CompilerRun

structure CompileSettings extends Settings where
  outDir : Option String := none
  compilerPath : Option String := none
  extraArguments : List String := []
  /-- Whether descriptors are read from a file instead of running a schema compiler. -/
  skipCompiler : Bool := false
  /-- Where descriptors are read from or, if a schema compiler is run, saved to. -/
  descriptorPath : Option String := none
deriving DecidableEq, Repr

/-- What a compilation did: the arguments of the schema compiler if it was run, the
    descriptors that were saved, and the generated files with their folder. -/
structure CompileReport where
  arguments : Option (List String) := none
  saved : Option Bytes := none
  result : Except GenerateError (String × List GeneratedFile)

/-! ## Compiling -/

def Surroundings.findCompiler (world : Surroundings) (settings : CompileSettings) :
    Except GenerateError String :=
  match settings.compilerPath, world.compilerVariable, world.compilerOnPath with
  | some path, _, _ => .ok path
  | none, some path, _ => if world.isFile path then .ok path else .error .compilerNotFound
  | none, none, some path => .ok path
  | none, none, none => .error .compilerNotFound

/-- What the schema compiler is told: where imports are found, where to write descriptors,
    that imports and comments belong to them, and what to compile. -/
def compilerArguments (out : String) (protos includes extra : List String) : List String :=
  includes.flatMap (["-I", ·]) ++
    ["--descriptor_set_out=" ++ out, "--include_imports", "--include_source_info"] ++
      extra ++ protos

def CompilerRun.complaint (r : CompilerRun) : String :=
  "\n".intercalate ([trimmed r.stdout, trimmed r.stderr].filter (· ≠ ""))

def readDescriptors (contents : Option Bytes) : Except GenerateError DescriptorSet :=
  match contents with
  | none => .error .io
  | some bytes => (DescriptorSet.decode bytes).mapError .undecodable

def CompilerRun.result (run : Option CompilerRun) : Except GenerateError DescriptorSet :=
  match run with
  | none => .error .io
  | some r =>
    if r.succeeded then readDescriptors r.descriptors else .error (.compilerFailed r.complaint)

def compileDescriptors (world : Surroundings) (settings : CompileSettings) (s : DescriptorSet) :
    Except GenerateError (String × List GeneratedFile) :=
  match settings.outDir.or world.outDir with
  | none => .error .missingOutDir
  | some outDir => do
    let files ← s.generate settings.toSettings none
    return (outDir, files)

def compileSchema (world : Surroundings) (settings : CompileSettings)
    (protos includes : List String) : CompileReport :=
  if settings.skipCompiler then
    match settings.descriptorPath with
    | none => { result := .error .missingDescriptorPath }
    | some path =>
      { result := readDescriptors (world.contentsOf path) >>= compileDescriptors world settings }
  else
    match world.findCompiler settings with
    | .error e => { result := .error e }
    | .ok compiler =>
      let arguments := compilerArguments world.scratchFile protos includes settings.extraArguments
      let run := world.run compiler arguments
      let ran := run.map fun _ => arguments
      match CompilerRun.result run with
      | .error e => { arguments := ran, result := .error e }
      | .ok s =>
        { arguments := ran
          saved := settings.descriptorPath.map fun _ => s.encode
          result := compileDescriptors world settings s }

end Protobuf
