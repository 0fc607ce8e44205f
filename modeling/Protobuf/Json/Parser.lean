import Protobuf.Json.Token

/-! # Reading JSON text

A document is read by one pass over its tokens with a stack of the arrays and
objects that are still open.  An object that repeats a key is refused when the key
appears for the second time, whatever may follow.

* `JsonReader.step`: what one token does.
* `Json.parse`: the value of a whole text.
-/

namespace Protobuf

/-- An array or object that is still open.  An object waits for the value of its
    last key. -/
inductive JsonFrame
  | array (items : List Json)
  | object (members : List (String × Json)) (key : String)

/-- What may come next.  The open arrays and objects are innermost first. -/
inductive JsonReader
  | value (stack : List JsonFrame)
  | firstItem (stack : List JsonFrame)
  | afterItem (items : List Json) (stack : List JsonFrame)
  | firstKey (stack : List JsonFrame)
  | nextKey (members : List (String × Json)) (stack : List JsonFrame)
  | afterKey (members : List (String × Json)) (key : String) (stack : List JsonFrame)
  | afterMember (members : List (String × Json)) (stack : List JsonFrame)
  | done (v : Json)

namespace JsonReader

def depthLimit : Nat := 127

/-- Hands a complete value to what waits for it. -/
def accept (v : Json) : List JsonFrame → JsonReader
  | [] => .done v
  | .array items :: stack => .afterItem (items ++ [v]) stack
  | .object members key :: stack => .afterMember (members ++ [(key, v)]) stack

def enter (stack : List JsonFrame) (reader : JsonReader) : Except DecodeError JsonReader :=
  if stack.length < depthLimit then .ok reader else .error .malformedJson

def startValue (stack : List JsonFrame) : JsonToken → Except DecodeError JsonReader
  | .null => .ok (accept .null stack)
  | .bool b => .ok (accept (.bool b) stack)
  | .number n => .ok (accept (.number n) stack)
  | .string s => .ok (accept (.string s) stack)
  | .openArray => enter stack (.firstItem stack)
  | .openObject => enter stack (.firstKey stack)
  | _ => .error .malformedJson

def step : JsonReader → JsonToken → Except DecodeError JsonReader
  | .value stack, t => startValue stack t
  | .firstItem stack, .closeArray => .ok (accept (.array []) stack)
  | .firstItem stack, t => startValue (.array [] :: stack) t
  | .afterItem items stack, .comma => .ok (.value (.array items :: stack))
  | .afterItem items stack, .closeArray => .ok (accept (.array items) stack)
  | .firstKey stack, .closeObject => .ok (accept (.object []) stack)
  | .firstKey stack, .string k => .ok (.afterKey [] k stack)
  | .nextKey members stack, .string k =>
    if members.any (·.1 = k) then .error (.repeatedKey k) else .ok (.afterKey members k stack)
  | .afterKey members k stack, .colon => .ok (.value (.object members k :: stack))
  | .afterMember members stack, .comma => .ok (.nextKey members stack)
  | .afterMember members stack, .closeObject => .ok (accept (.object members) stack)
  | _, _ => .error .malformedJson

def run : JsonReader → List JsonToken → Except DecodeError Json
  | .done v, [] => .ok v
  | _, [] => .error .malformedJson
  | reader, t :: rest =>
    match step reader t with
    | .ok reader => run reader rest
    | .error e => .error e

end JsonReader

def Json.parse (text : String) : Except DecodeError Json :=
  JsonReader.run (.value []) (JsonToken.ofText text)

end Protobuf
