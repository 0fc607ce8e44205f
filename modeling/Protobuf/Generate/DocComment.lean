import Protobuf.Descriptor.Basic
import Protobuf.Source.Code
import Protobuf.Text.Blank
import Protobuf.Text.Split

/-! # Comments

The comments of a schema become the documentation of what is generated.  A location says
by a path which element it is about: the number of the field of the descriptor that holds
the element, and the position in it, over and over from the file down.

* `ElementPath`: the paths of elements.
* `SourceLocation.doc?`: the lines of documentation in a location.
* `FileDescriptor.docOf`: those of an element.
-/

namespace Protobuf

abbrev ElementPath := List Int32

namespace ElementPath

def child (path : ElementPath) (field : Int32) (index : Nat) : ElementPath :=
  path ++ [field, Int32.ofNat index]

def message (index : Nat) : ElementPath := child [] 4 index

def enumeration (index : Nat) : ElementPath := child [] 5 index

def field (path : ElementPath) (index : Nat) : ElementPath := child path 2 index

def nestedMessage (path : ElementPath) (index : Nat) : ElementPath := child path 3 index

def nestedEnum (path : ElementPath) (index : Nat) : ElementPath := child path 4 index

def oneof (path : ElementPath) (index : Nat) : ElementPath := child path 8 index

def enumValue (path : ElementPath) (index : Nat) : ElementPath := child path 2 index

end ElementPath

/-! ## Documentation -/

/-- A line of a comment without blanks at its ends and without the stars that block
    comments put in front. -/
def commentLine (line : String) : String :=
  String.ofList (((trimmed line).toList.dropWhile (· = '*')).dropWhile isBlank)

def commentLines (comment : String) : List String :=
  ((splitText '\n' comment).map commentLine).filter (· ≠ "")

/-- The lines of documentation in a location: the detached comments, the leading and the
    trailing one, with an empty line between two of them. -/
def SourceLocation.doc? (l : SourceLocation) : Option (List String) :=
  let comments := l.leadingDetachedComments ++ l.leadingComments.toList ++ l.trailingComments.toList
  match (comments.map commentLines).filter (· ≠ []) with
  | [] => none
  | parts => some ([""].intercalate parts)

def FileDescriptor.docOf (f : FileDescriptor) (path : ElementPath) : List String :=
  let locations := (f.sourceInfo.map (·.locations)).getD []
  ((locations.reverse.filter (·.path = path)).findSome? (·.doc?)).getD []

def docCode (lines : List String) : Code :=
  .sequence (lines.map fun line => .sequence ["#", .brackets ["doc =", .literal (" " ++ line)]])

end Protobuf
