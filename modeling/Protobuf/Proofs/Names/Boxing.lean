import Mathlib.Data.Set.Finite.List
import Mathlib.Order.WellFoundedSet
import Protobuf.Proofs.Names.Walk

/-! # Boxing is exact

A field is boxed exactly if it closes a cycle of messages that lie inside one another, so
that without the fields that are boxed there is no such cycle.

* `DescriptorSet.messages`: the messages of a set of files, and their names.
* `DescriptorSet.Holds`, `DescriptorSet.HoldsUnboxed`: messages inside messages.
* `DescriptorSet.leads_iff`: what messages lead to, by positions and by names.
* `DescriptorSet.boxedFields_exact`: which fields are boxed, and what is left.
-/

namespace Protobuf

mutual

/-- A message and those that are declared inside it, map entries apart, under their
    fully-qualified names.  What has no name is not declared. -/
def MessageDescriptor.messages (scope : String) : MessageDescriptor → List (String × MessageDescriptor)
  | ⟨none, _, _, _, _, _⟩ => []
  | ⟨some name, fields, nestedTypes, enumTypes, options, oneofs⟩ =>
    (scope ++ name, ⟨some name, fields, nestedTypes, enumTypes, options, oneofs⟩) ::
      nestedMessages (scope ++ name ++ ".") nestedTypes

def nestedMessages (scope : String) : List MessageDescriptor → List (String × MessageDescriptor)
  | [] => []
  | m :: rest =>
    if m.isMapEntry then nestedMessages scope rest
    else m.messages scope ++ nestedMessages scope rest

end

/-- A message has a field of some name that is of message type, is not repeated, and refers
    to a message of some name. -/
def MessageDescriptor.HasInline (m : MessageDescriptor) (field target : String) : Prop :=
  ∃ f ∈ m.fields, f.kind? = some .message ∧ f.isRepeated = false ∧ f.name = some field ∧
    f.typeName = some target

namespace DescriptorSet

def messages (s : DescriptorSet) : List (String × MessageDescriptor) :=
  s.files.flatMap fun f => f.messageTypes.flatMap fun m => m.messages f.scope

def messageNames (s : DescriptorSet) : List String := s.messages.map (·.1)

def Holds (s : DescriptorSet) (outer inner : String) : Prop :=
  ∃ m field, (outer, m) ∈ s.messages ∧ m.HasInline field inner ∧ inner ∈ s.messageNames

/-- A message of the set holds another one by a field that is neither repeated nor boxed. -/
def HoldsUnboxed (s : DescriptorSet) (outer inner : String) : Prop :=
  ∃ m field, (outer, m) ∈ s.messages ∧ m.HasInline field inner ∧ inner ∈ s.messageNames ∧
    (outer, field) ∉ s.boxedFields

end DescriptorSet

/-! ## The graph of a set -/

theorem FieldDescriptor.inlineTarget?_eq_some {f : FieldDescriptor} {edge : String × String} :
    f.inlineTarget? = some edge ↔ f.kind? = some .message ∧ f.isRepeated = false ∧
      f.name = some edge.1 ∧ f.typeName = some edge.2 := by
  obtain ⟨field, target⟩ := edge
  -- One split for each condition of the definition.
  unfold inlineTarget? isInlineMessage
  by_cases hkind : f.kind? = some .message
  · by_cases hrepeated : f.isRepeated = false
    · cases hname : f.name <;> cases htype : f.typeName <;> simp [hkind, hrepeated]
    · simp [hrepeated]
  · simp [hkind]

def MessageDescriptor.node (e : String × MessageDescriptor) : MessageNode :=
  ⟨e.1, e.2.fields.filterMap (·.inlineTarget?)⟩

theorem MessageDescriptor.mem_inline_node {name field target : String} {m : MessageDescriptor} :
    (field, target) ∈ (node (name, m)).inline ↔ m.HasInline field target := by
  unfold node HasInline
  simp only [List.mem_filterMap, FieldDescriptor.inlineTarget?_eq_some]

mutual

theorem MessageDescriptor.nodes_eq (scope : String) (m : MessageDescriptor) :
    m.nodes scope = (m.messages scope).map MessageDescriptor.node := by
  match m with
  | ⟨none, _, _, _, _, _⟩ => rw [MessageDescriptor.nodes, MessageDescriptor.messages, List.map_nil]
  | ⟨some name, fields, nestedTypes, _, _, _⟩ =>
    rw [MessageDescriptor.nodes, MessageDescriptor.messages, List.map_cons,
      nestedNodes_eq (scope ++ name ++ ".") nestedTypes]
    rfl

theorem nestedNodes_eq (scope : String) (ms : List MessageDescriptor) :
    nestedNodes scope ms = (nestedMessages scope ms).map MessageDescriptor.node := by
  match ms with
  | [] => rw [nestedNodes, nestedMessages, List.map_nil]
  | m :: rest =>
    rw [nestedNodes, nestedMessages]
    by_cases hentry : m.isMapEntry = true
    · rw [if_pos hentry, if_pos hentry, nestedNodes_eq scope rest]
    · rw [if_neg hentry, if_neg hentry, List.map_append, m.nodes_eq scope,
        nestedNodes_eq scope rest]

end

namespace DescriptorSet

variable {s : DescriptorSet}

theorem messageGraph_eq (s : DescriptorSet) :
    s.messageGraph = s.messages.map MessageDescriptor.node := by
  unfold messageGraph messages
  simp only [List.map_flatMap, MessageDescriptor.nodes_eq]

def HasDistinctNames (s : DescriptorSet) : Prop := s.messageNames.Nodup

theorem map_name_messageGraph (s : DescriptorSet) :
    s.messageGraph.map (·.name) = s.messageNames := by
  rw [messageGraph_eq, List.map_map]
  rfl

/-- The node at the position of a message. -/
theorem getElem?_messageGraph {i : Nat} {n : MessageNode} :
    s.messageGraph[i]? = some n ↔ ∃ e, s.messages[i]? = some e ∧ MessageDescriptor.node e = n := by
  rw [messageGraph_eq, List.getElem?_map, Option.map_eq_some_iff]

theorem index?_eq_some_iff (distinct : s.HasDistinctNames) {name : String} {i : Nat} :
    s.messageGraph.index? name = some i ↔ ∃ m, s.messages[i]? = some (name, m) := by
  constructor
  · intro h
    obtain ⟨n, hn, hname⟩ := MessageGraph.getElem?_of_index? h
    obtain ⟨⟨name', m⟩, hm, rfl⟩ := getElem?_messageGraph.1 hn
    exact ⟨m, hname ▸ hm⟩
  · rintro ⟨m, hm⟩
    have hnode := getElem?_messageGraph.2 ⟨_, hm, rfl⟩
    exact MessageGraph.index?_of_getElem? (by rwa [map_name_messageGraph]) hnode

theorem exists_index? (distinct : s.HasDistinctNames) {name : String} (h : name ∈ s.messageNames) :
    ∃ i, s.messageGraph.index? name = some i := by
  obtain ⟨⟨_, m⟩, hm, rfl⟩ := List.mem_map.1 h
  obtain ⟨i, hi⟩ := List.mem_iff_getElem?.1 hm
  exact ⟨i, (index?_eq_some_iff distinct).2 ⟨m, hi⟩⟩

theorem mem_targets_iff {i j : Nat} : j ∈ s.messageGraph.targets i ↔
    ∃ name m, s.messages[i]? = some (name, m) ∧
      ∃ field target, m.HasInline field target ∧ s.messageGraph.index? target = some j := by
  rw [MessageGraph.mem_targets]
  constructor
  · rintro ⟨n, hn, ⟨field, target⟩, hedge, hindex⟩
    obtain ⟨⟨name, m⟩, hm, rfl⟩ := getElem?_messageGraph.1 hn
    exact ⟨name, m, hm, field, target, MessageDescriptor.mem_inline_node.1 hedge, hindex⟩
  · rintro ⟨name, m, hm, field, target, hinline, hindex⟩
    exact ⟨_, getElem?_messageGraph.2 ⟨_, hm, rfl⟩, (field, target),
      MessageDescriptor.mem_inline_node.2 hinline, hindex⟩

/-! ## Positions and names -/

/-- A message leads to another through messages that lie inside one another. -/
def LeadsTo (s : DescriptorSet) : String → String → Prop := Relation.ReflTransGen s.Holds

theorem mem_messageNames_of_index? (distinct : s.HasDistinctNames) {name : String} {i : Nat}
    (h : s.messageGraph.index? name = some i) : name ∈ s.messageNames := by
  obtain ⟨m, hm⟩ := (index?_eq_some_iff distinct).1 h
  exact List.mem_map.2 ⟨_, List.mem_of_getElem? hm, rfl⟩

theorem leadsTo_of_leads (distinct : s.HasDistinctNames) {i j : Nat} {outer inner : String}
    (hi : s.messageGraph.index? outer = some i) (hj : s.messageGraph.index? inner = some j)
    (h : s.messageGraph.Leads i j) : s.LeadsTo outer inner := by
  induction h generalizing inner with
  | refl =>
    obtain ⟨m, hm⟩ := (index?_eq_some_iff distinct).1 hi
    obtain ⟨m', hm'⟩ := (index?_eq_some_iff distinct).1 hj
    rw [hm] at hm'
    cases hm'
    exact .refl
  | tail _ hedge ih =>
    obtain ⟨name, m, hm, field, target, hinline, hindex⟩ := mem_targets_iff.1 hedge
    -- The names that a position and its message have agree, since no name is there twice.
    have hname := ih ((index?_eq_some_iff distinct).2 ⟨m, hm⟩)
    obtain ⟨m', hm'⟩ := (index?_eq_some_iff distinct).1 hj
    obtain ⟨m'', hm''⟩ := (index?_eq_some_iff distinct).1 hindex
    rw [hm'] at hm''
    cases hm''
    exact hname.tail ⟨m, field, List.mem_of_getElem? hm, hinline,
      mem_messageNames_of_index? distinct hj⟩

theorem leads_of_leadsTo (distinct : s.HasDistinctNames) {i j : Nat} {outer inner : String}
    (hi : s.messageGraph.index? outer = some i) (hj : s.messageGraph.index? inner = some j)
    (h : s.LeadsTo outer inner) : s.messageGraph.Leads i j := by
  induction h generalizing j with
  | refl =>
    rw [hi] at hj
    cases hj
    exact .refl
  | tail _ hholds ih =>
    obtain ⟨m, field, hm, hinline, _⟩ := hholds
    obtain ⟨k, hk⟩ := List.mem_iff_getElem?.1 hm
    have hstep : j ∈ s.messageGraph.targets k :=
      mem_targets_iff.2 ⟨_, m, hk, field, _, hinline, hj⟩
    exact (ih ((index?_eq_some_iff distinct).2 ⟨m, hk⟩)).trans (.of_mem hstep)

/-- What messages lead to does not depend on whether they are known by position or name. -/
theorem leads_iff (distinct : s.HasDistinctNames) {i j : Nat} {outer inner : String}
    (hi : s.messageGraph.index? outer = some i) (hj : s.messageGraph.index? inner = some j) :
    s.messageGraph.Leads i j ↔ s.LeadsTo outer inner :=
  ⟨leadsTo_of_leads distinct hi hj, leads_of_leadsTo distinct hi hj⟩

theorem mem_boxedFields_iff {owner field : String} : (owner, field) ∈ s.boxedFields ↔
    ∃ i m target t, s.messages[i]? = some (owner, m) ∧ m.HasInline field target ∧
      s.messageGraph.index? target = some t ∧
      s.messageGraph.components.component i = s.messageGraph.components.component t := by
  unfold boxedFields MessageGraph.boxedFields
  simp only [List.mem_flatMap, List.mem_filterMap, Prod.exists, List.mem_zipIdx_iff_getElem?]
  constructor
  · rintro ⟨n, i, hn, name, target, hedge, hbox⟩
    obtain ⟨⟨owner', m⟩, hm, rfl⟩ := getElem?_messageGraph.1 hn
    cases hindex : s.messageGraph.index? target with
    | none =>
      rw [hindex] at hbox
      cases hbox
    | some t =>
      rw [hindex] at hbox
      by_cases hsame : s.messageGraph.components.component i =
          s.messageGraph.components.component t
      · simp only [if_pos hsame] at hbox
        cases hbox
        exact ⟨i, m, target, t, hm, MessageDescriptor.mem_inline_node.1 hedge, hindex, hsame⟩
      · simp only [if_neg hsame] at hbox
        cases hbox
  · rintro ⟨i, m, target, t, hm, hinline, hindex, hsame⟩
    refine ⟨_, i, getElem?_messageGraph.2 ⟨_, hm, rfl⟩, field, target,
      MessageDescriptor.mem_inline_node.2 hinline, ?_⟩
    rw [hindex]
    exact if_pos hsame

/-- A field is boxed exactly if it holds a message of the set that leads back to its owner. -/
theorem mem_boxedFields_iff_leadsTo (distinct : s.HasDistinctNames) {owner field : String} :
    (owner, field) ∈ s.boxedFields ↔ ∃ m target, (owner, m) ∈ s.messages ∧
      m.HasInline field target ∧ target ∈ s.messageNames ∧ s.LeadsTo target owner := by
  have hcomponent : ∀ {i t target m}, s.messages[i]? = some (owner, m) →
      s.messageGraph.index? target = some t → m.HasInline field target →
      (s.messageGraph.components.component i = s.messageGraph.components.component t ↔
        s.LeadsTo target owner) := by
    intro i t target m hm ht hinline
    have hi := (index?_eq_some_iff distinct).2 ⟨m, hm⟩
    have hedge : t ∈ s.messageGraph.targets i :=
      mem_targets_iff.2 ⟨_, m, hm, field, target, hinline, ht⟩
    have hlength : i < s.messageGraph.length := by
      obtain ⟨n, hn, _⟩ := MessageGraph.getElem?_of_index? hi
      exact (List.getElem?_eq_some_iff.1 hn).1
    -- The field itself leads one way.
    rw [MessageGraph.component_eq_iff hlength (MessageGraph.lt_of_mem_targets hedge),
      leads_iff distinct ht hi]
    exact ⟨fun h => h.2, fun h => ⟨.of_mem hedge, h⟩⟩
  rw [mem_boxedFields_iff]
  constructor
  · rintro ⟨i, m, target, t, hm, hinline, ht, hsame⟩
    exact ⟨m, target, List.mem_of_getElem? hm, hinline, mem_messageNames_of_index? distinct ht,
      (hcomponent hm ht hinline).1 hsame⟩
  · rintro ⟨m, target, hm, hinline, htarget, hleads⟩
    obtain ⟨i, hi⟩ := List.mem_iff_getElem?.1 hm
    obtain ⟨t, ht⟩ := exists_index? distinct htarget
    exact ⟨i, m, target, t, hi, hinline, ht, (hcomponent hi ht hinline).2 hleads⟩

/-! ## What is left -/

theorem HoldsUnboxed.holds {outer inner : String} (h : s.HoldsUnboxed outer inner) :
    s.Holds outer inner := by
  obtain ⟨m, field, hm, hinline, hmem, _⟩ := h
  exact ⟨m, field, hm, hinline, hmem⟩

/-- Without the fields that are boxed no message lies inside itself. -/
theorem not_transGen_holdsUnboxed (distinct : s.HasDistinctNames) (name : String) :
    ¬Relation.TransGen s.HoldsUnboxed name name := by
  intro hcycle
  -- The first field of a cycle holds a message that leads back to its owner, so it is boxed.
  obtain ⟨inner, hfirst, hrest⟩ := Relation.TransGen.head'_iff.1 hcycle
  obtain ⟨m, field, hm, hinline, hmem, hunboxed⟩ := hfirst
  have hback : s.LeadsTo inner name :=
    Relation.ReflTransGen.mono (fun _ _ h => HoldsUnboxed.holds h) _ _ hrest
  exact hunboxed ((mem_boxedFields_iff_leadsTo distinct).2 ⟨m, inner, hm, hinline, hmem, hback⟩)

/-- So messages that lie inside one another without boxes come to an end. -/
theorem wellFounded_holdsUnboxed (distinct : s.HasDistinctNames) :
    WellFounded fun inner outer => s.HoldsUnboxed outer inner := by
  have hstrict : IsStrictOrder String
      (Relation.TransGen fun inner outer => s.HoldsUnboxed outer inner) :=
    { irrefl := fun name h => not_transGen_holdsUnboxed distinct name (Relation.transGen_swap.1 h)
      trans := fun _ _ _ => Relation.TransGen.trans }
  -- There are finitely many names, and on them the order has no cycle.
  have hfinite : {name | name ∈ s.messageNames}.Finite := List.finite_toSet s.messageNames
  have hwell := Set.wellFoundedOn_iff.1 (@Set.Finite.wellFoundedOn _ _ hstrict _ hfinite)
  refine Subrelation.wf ?_ hwell
  rintro inner outer h
  obtain ⟨m, field, hm, hinline, hmem, hunboxed⟩ := h
  exact ⟨.single ⟨m, field, hm, hinline, hmem, hunboxed⟩, hmem, List.mem_map.2 ⟨_, hm, rfl⟩⟩

/-- In a set of files whose messages have names of their own, a field is boxed exactly if it
    is of message type, is not repeated and refers to a message of the set that leads back to
    its owner through no such field or more.  So without the fields that are boxed no message
    lies inside itself, and every message is of finite size. -/
theorem boxedFields_exact (distinct : s.HasDistinctNames) :
    (∀ owner field, (owner, field) ∈ s.boxedFields ↔ ∃ m target, (owner, m) ∈ s.messages ∧
        m.HasInline field target ∧ target ∈ s.messageNames ∧ s.LeadsTo target owner) ∧
      (∀ name, ¬Relation.TransGen s.HoldsUnboxed name name) ∧
        WellFounded fun inner outer => s.HoldsUnboxed outer inner :=
  ⟨fun _ _ => mem_boxedFields_iff_leadsTo distinct, not_transGen_holdsUnboxed distinct,
    wellFounded_holdsUnboxed distinct⟩

def messageField (name typeName : String) : FieldDescriptor :=
  { name := some name, type := some FieldKind.message.code, typeName := some typeName }

def expression : MessageDescriptor :=
  { name := some "Expr"
    fields :=
      [ messageField "lhs" ".test.Expr",
        { messageField "args" ".test.Expr" with label := some Label.repeated.code },
        messageField "call" ".test.Call" ] }

def call : MessageDescriptor :=
  { name := some "Call", fields := [messageField "callee" ".test.Expr"] }

def expressions : DescriptorSet :=
  { files := [{ package := some "test", messageTypes := [expression, call] }] }

theorem messages_expressions :
    expressions.messages = [(".test.Expr", expression), (".test.Call", call)] := by
  simp [messages, expressions, expression, call, MessageDescriptor.messages, nestedMessages,
    FileDescriptor.scope, FileDescriptor.packageName]

theorem distinct_expressions : expressions.HasDistinctNames := by
  unfold HasDistinctNames messageNames
  rw [messages_expressions]
  decide

theorem boxedFields_exact_expressions : (".test.Expr", "call") ∈ expressions.boxedFields := by
  have hexpression : (".test.Expr", expression) ∈ expressions.messages := by
    simp [messages_expressions]
  have hcall : (".test.Call", call) ∈ expressions.messages := by simp [messages_expressions]
  have hback : expressions.LeadsTo ".test.Call" ".test.Expr" :=
    .single ⟨call, "callee", hcall, ⟨_, List.mem_cons_self, by decide, by decide, rfl, rfl⟩,
      List.mem_map.2 ⟨_, hexpression, rfl⟩⟩
  exact ((boxedFields_exact distinct_expressions).1 ".test.Expr" "call").2
    ⟨expression, ".test.Call", hexpression,
      ⟨_, List.mem_cons_of_mem _ (List.mem_cons_of_mem _ List.mem_cons_self), by decide, by decide,
        rfl, rfl⟩,
      List.mem_map.2 ⟨_, hcall, rfl⟩, hback⟩

end DescriptorSet

end Protobuf
