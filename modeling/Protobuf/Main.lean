import Protobuf.Compiler.Plugin
import Protobuf.Conformance.Runner

/-! # The program

Two programs in one, both between standard input and standard output.  Called as
`conformance` it answers the framed requests of a test runner one by one; called in any
other way it is a plugin of a schema compiler and answers one request.

* `main`: what is wrong is told on standard error, and by the exit code.
-/

namespace Protobuf

/-- Reads so many bytes, or what there is before the input ends. -/
partial def readBytes (input : IO.FS.Stream) (count : Nat) : IO Bytes := do
  if count = 0 then return []
  let bytes ← input.read count.toUSize
  if bytes.isEmpty then return []
  return bytes.toList ++ (← readBytes input (count - bytes.size))

partial def readAll (input : IO.FS.Stream) : IO Bytes := do
  let bytes ← input.read 65536
  if bytes.isEmpty then return []
  return bytes.toList ++ (← readAll input)

def writeBytes (output : IO.FS.Stream) (bytes : Bytes) : IO Unit := do
  output.write ⟨bytes.toArray⟩
  output.flush

def fail (message : String) : IO UInt32 := do
  (← IO.getStderr).putStrLn message
  return 1

/-- Answers the requests of a test runner.  Each is answered before the next is read.  Of a
    text that is no JSON it is not told why. -/
partial def runConformance (input output : IO.FS.Stream) : IO UInt32 := do
  let length ← readBytes input 4
  let body ← if length.length = 4 then readBytes input (Bytes.toNat length) else pure []
  let (result, exchanges) := Conformance.serve (fun _ => "") (length ++ body)
  for exchange in exchanges do
    writeBytes output exchange.frame
  match result with
  | .error (.failed e) => fail e.message
  | .error .overflow => fail "attempt to negate with overflow"
  | .ok () => if exchanges.isEmpty then return 0 else runConformance input output

def runPlugin (input output : IO.FS.Stream) : IO UInt32 := do
  match PluginRequest.decode (← readAll input) with
  | .error e => fail (e.message "")
  | .ok request =>
    writeBytes output request.respond.encode
    return 0

end Protobuf

def main (args : List String) : IO UInt32 := do
  let input ← IO.getStdin
  let output ← IO.getStdout
  if args = ["conformance"] then Protobuf.runConformance input output
  else Protobuf.runPlugin input output
