/-! # Lower camel case

The JSON name of a field whose schema does not give one: underscores go, and the
letter behind one becomes a capital.
-/

namespace Protobuf

/-- Drops underscores and capitalises what follows one.  Only ASCII letters have
    capitals here. -/
def camelChars : (capital : Bool) → List Char → List Char
  | _, [] => []
  | capital, c :: rest =>
    if c = '_' then camelChars true rest
    else (if capital then c.toUpper else c) :: camelChars false rest

def lowerCamelCase (name : String) : String := String.ofList (camelChars false name.toList)

end Protobuf
