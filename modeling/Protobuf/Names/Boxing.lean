import Protobuf.Descriptor.Basic

/-! # Boxing

A message that holds itself, directly or through other messages, has no finite size
unless some field on the way is a pointer.  A list or a map is one already.  The messages
are grouped into the strongly connected components of the graph of all other message
fields, and such a field is boxed if what it refers to is in the component of its owner.

* `MessageGraph`: the messages of a schema and the fields by which one lies inside
  another.
* `MessageGraph.visit`: the depth-first walk that finds the components.
* `DescriptorSet.boxedFields`: the fields that are boxed.
-/

namespace Protobuf

/-- A message, and its fields that hold another message in place: the name of the field
    and of the message that it refers to. -/
structure MessageNode where
  name : String
  inline : List (String × String)
deriving DecidableEq, Repr

abbrev MessageGraph := List MessageNode

def FieldDescriptor.isInlineMessage (f : FieldDescriptor) : Bool :=
  f.kind? = some .message && !f.isRepeated

/-- The name of an inline field, and of the message that it refers to. -/
def FieldDescriptor.inlineTarget? (f : FieldDescriptor) : Option (String × String) :=
  if f.isInlineMessage then
    match f.name, f.typeName with
    | some name, some typeName => some (name, typeName)
    | _, _ => none
  else none

mutual

/-- The nodes of a message and of what is declared inside it, map entries apart.
    `scope` is what the fully-qualified name begins with. -/
def MessageDescriptor.nodes (scope : String) : MessageDescriptor → MessageGraph
  | ⟨none, _, _, _, _, _⟩ => []
  | ⟨some name, fields, nestedTypes, _, _, _⟩ =>
    ⟨scope ++ name, fields.filterMap (·.inlineTarget?)⟩ ::
      nestedNodes (scope ++ name ++ ".") nestedTypes

def nestedNodes (scope : String) : List MessageDescriptor → MessageGraph
  | [] => []
  | m :: rest =>
    if m.isMapEntry then nestedNodes scope rest
    else m.nodes scope ++ nestedNodes scope rest

end

def DescriptorSet.messageGraph (s : DescriptorSet) : MessageGraph :=
  s.files.flatMap fun f => f.messageTypes.flatMap fun m => m.nodes f.scope

namespace MessageGraph

/-- The position of the message of a name.  Of two with one name the later one counts. -/
def index? : MessageGraph → String → Option Nat
  | [], _ => none
  | n :: rest, name =>
    match index? rest name with
    | some i => some (i + 1)
    | none => if n.name = name then some 0 else none

/-- The positions of the messages that lie in place inside the one at a position. -/
def targets (g : MessageGraph) (node : Nat) : List Nat :=
  match g[node]? with
  | some n => n.inline.filterMap fun edge => g.index? edge.2
  | none => []

end MessageGraph

/-! ## Components -/

/-- What is known of the messages while the graph is walked through, by their positions:
    the order in which they were found, the least number that each leads back to, the ones
    whose component is still open, and the components that are closed. -/
structure Components where
  nextIndex : Nat := 0
  index : Nat → Option Nat := fun _ => none
  lowLink : Nat → Nat := fun _ => 0
  stack : List Nat := []
  onStack : Nat → Bool := fun _ => false
  component : Nat → Nat := fun _ => 0
  count : Nat := 0

def setAt {α : Type} (table : Nat → α) (node : Nat) (value : α) : Nat → α :=
  fun other => if other = node then value else table other

namespace Components

def enter (c : Components) (node : Nat) : Components :=
  { c with
    nextIndex := c.nextIndex + 1
    index := setAt c.index node (some c.nextIndex)
    lowLink := setAt c.lowLink node c.nextIndex
    stack := node :: c.stack
    onStack := setAt c.onStack node true }

/-- Notes that a message leads back to a number. -/
def lower (c : Components) (node low : Nat) : Components :=
  { c with lowLink := setAt c.lowLink node (min (c.lowLink node) low) }

/-- Follows one field of a message.  Only a message whose component is open can lead back
    to the component of the owner. -/
def follow (visit : Nat → Components → Components) (node : Nat) (c : Components) (target : Nat) :
    Components :=
  match c.index target with
  | none =>
    let c := visit target c
    c.lower node (c.lowLink target)
  | some index => if c.onStack target then c.lower node index else c

/-- Takes messages from the stack, down to one of them, into the component that is being
    closed. -/
def popTo (node : Nat) : List Nat → Components → Components
  | [], c => { c with stack := [] }
  | member :: rest, c =>
    let c := { c with
      stack := rest
      onStack := setAt c.onStack member false
      component := setAt c.component member c.count }
    if member = node then c else popTo node rest c

/-- Closes the component of a message that leads back to nothing in front of itself. -/
def leave (c : Components) (node : Nat) : Components :=
  if some (c.lowLink node) = c.index node then
    let c := popTo node c.stack c
    { c with count := c.count + 1 }
  else c

end Components

namespace MessageGraph

/-- Walks through what a message leads to.  `levels` bounds how many messages lie inside
    one another on the way; no way is longer than there are messages. -/
def visit (g : MessageGraph) : (levels : Nat) → Nat → Components → Components
  | 0, _, c => c
  | levels + 1, node, c =>
    ((g.targets node).foldl (Components.follow (visit g levels) node) (c.enter node)).leave node

def visitNew (g : MessageGraph) (c : Components) (node : Nat) : Components :=
  match c.index node with
  | none => visit g g.length node c
  | some _ => c

def components (g : MessageGraph) : Components := (List.range g.length).foldl (visitNew g) {}

def boxedFields (g : MessageGraph) : List (String × String) :=
  let c := g.components
  g.zipIdx.flatMap fun (n, node) =>
    n.inline.filterMap fun (field, target) =>
      match g.index? target with
      | some t => if c.component node = c.component t then some (n.name, field) else none
      | none => none

end MessageGraph

def DescriptorSet.boxedFields (s : DescriptorSet) : List (String × String) :=
  MessageGraph.boxedFields s.messageGraph

end Protobuf
