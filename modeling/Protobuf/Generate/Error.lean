import Protobuf.Error

/-! # Errors of the generator

Why no code could be generated for a schema, as causes.

* `GenerateError.message`: the wording.  What an external program or the operating
  system said is told by the fact alone, but for the output of a schema compiler, which
  is quoted up to a length.
-/

namespace Protobuf

inductive GenerateError
  /-- A file could not be read or written. -/
  | io
  | compilerNotFound
  | compilerFailed (output : String)
  | undecodable (cause : DecodeError)
  | missingOutDir
  | missingDescriptorPath
  | missingName
  | missingFieldNumber (field : String)
  | invalidFieldType (field : String) (code : Int32)
  | groupsUnsupported (field : String)
  | proto2Unsupported (file feature : String)
  | unresolvedType (field typeName : String)
  | duplicateFieldNumber (message : String) (number : Int32)
  | invalidMapEntry (typeName : String)
  | invalidExternPath (protoPath codePath : String)
  /-- The code does not parse, because of a word that names nothing: a lone underscore, or
      one that may begin no type. -/
  | unparsableCode
  | unsupportedTarget (target : String)
  | unsupportedWellKnownType (typeName : String)
  | invalidParameter (parameter : String)
  | notAnIdentifier (name : String)
deriving DecidableEq, Repr

/-- The longest front of a text that fits into so many UTF-8 bytes. -/
def frontWithin : (bytes : Nat) → List Char → List Char
  | _, [] => []
  | bytes, c :: rest =>
    if c.utf8Size ≤ bytes then c :: frontWithin (bytes - c.utf8Size) rest else []

def quotedOutputLimit : Nat := 1000

def quotedOutput (output : String) : String :=
  if output.utf8ByteSize ≤ quotedOutputLimit then output
  else String.ofList (frontWithin quotedOutputLimit output.toList) ++ "... (truncated)"

def GenerateError.message : GenerateError → String
  | .io => "IO error"
  | .compilerNotFound => "protoc not found. Set PROTOC env var or install protoc."
  | .compilerFailed output => s!"protoc failed: {quotedOutput output}"
  -- Descriptors are bytes: the parser of JSON texts has nothing to say.
  | .undecodable cause => "failed to decode descriptor: " ++ cause.message ""
  | .missingOutDir => "OUT_DIR not set. Run from build.rs or set out_dir()."
  | .missingDescriptorPath => "file_descriptor_set_path required when skip_protoc is set"
  | .missingName => "missing name in descriptor"
  | .missingFieldNumber field => s!"missing number for field '{field}'"
  | .invalidFieldType field code => s!"invalid type {code.toInt} for field '{field}'"
  | .groupsUnsupported field => s!"field '{field}' is a group, groups are not supported"
  | .proto2Unsupported file feature =>
    s!"{file}: {feature} is not supported, only proto3 files can be generated"
  | .unresolvedType field typeName => s!"field '{field}' references unknown type '{typeName}'"
  | .duplicateFieldNumber message number =>
    s!"message '{message}' uses field number {number.toInt} more than once"
  | .invalidMapEntry typeName => s!"invalid map entry '{typeName}'"
  | .invalidExternPath protoPath codePath =>
    s!"invalid extern path '{codePath}' for '{protoPath}'"
  | .unparsableCode => "failed to parse generated code"
  | .unsupportedTarget target =>
    s!"unsupported target '{target}', the only supported target is 'rust'"
  | .unsupportedWellKnownType typeName =>
    s!"'{typeName}' is a well-known type, enable emit_well_known_types to generate it"
  | .invalidParameter parameter => s!"invalid plugin parameter '{parameter}'"
  | .notAnIdentifier name => s!"'{name}' is not an identifier"

end Protobuf
