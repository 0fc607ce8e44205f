import Protobuf.Text.CharSet

/-! # Blanks

White space in the sense of the Unicode standard.

* `trimmed`: a text without the blanks at its ends.
-/

namespace Protobuf

def blanks : CharSet where
  bounds := [
    0x9, 0xE, 0x20, 0x21, 0x85, 0x86, 0xA0, 0xA1, 0x1680, 0x1681, 0x2000, 0x200B, 0x2028, 0x202A,
    0x202F, 0x2030, 0x205F, 0x2060, 0x3000, 0x3001]

def isBlank (c : Char) : Bool := blanks.contains c

def trimmedEnd (text : String) : String :=
  String.ofList (text.toList.reverse.dropWhile isBlank).reverse

def trimmed (text : String) : String :=
  trimmedEnd (String.ofList (text.toList.dropWhile isBlank))

end Protobuf
