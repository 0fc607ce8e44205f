import Protobuf.Compiler.Plugin
import Protobuf.Proofs.Descriptor.Records

/-! # Descriptors are read back

What a reader makes of a descriptor that was written is the same descriptor: what is absent
stays absent, and what is there but empty stays there.  Readers go a hundred levels deep, of
which a file takes the first, and whatever is declared in something the one below it.

* `MessageDescriptor.depth`, `FileDescriptor.depth`: how many levels a descriptor takes.
* `MessageDescriptor.reads`, `FileDescriptor.reads`: descriptors with enough levels left.
* `decode_encode_descriptors`: sets of files, and the requests and responses of the plugin
  protocol.
-/

namespace Protobuf

open Record (Feeds)

def deepest (depths : List Nat) : Nat := depths.foldr max 0

theorem deepest_le_iff {depths : List Nat} {n : Nat} : deepest depths ≤ n ↔ ∀ d ∈ depths, d ≤ n := by
  induction depths with
  | nil => simp [deepest]
  | cons d rest ih =>
    rw [List.forall_mem_cons, ← ih, deepest, deepest, List.foldr_cons, Nat.max_le]

/-- What has parts takes a level, and its parts have the others. -/
theorem levels_of_le {depths : List Nat} {n : Nat} (h : deepest depths + 1 ≤ n) :
    0 < n ∧ ∀ d ∈ depths, d ≤ n - 1 :=
  ⟨by omega, deepest_le_iff.1 (by omega)⟩

def EnumDescriptor.depth (e : EnumDescriptor) : Nat := deepest (e.values.map fun _ => 1) + 1

def SourceInfo.depth (i : SourceInfo) : Nat := deepest (i.locations.map fun _ => 1) + 1

mutual

def MessageDescriptor.depth : MessageDescriptor → Nat
  | ⟨_, fields, nestedTypes, enumTypes, options, oneofs⟩ =>
    deepest ((fields.map fun _ => 1) ++ messageDepths nestedTypes ++ enumTypes.map (·.depth) ++
      (options.toList.map fun _ => 1) ++ oneofs.map fun _ => 1) + 1

def messageDepths : List MessageDescriptor → List Nat
  | [] => []
  | m :: rest => m.depth :: messageDepths rest

end

def FileDescriptor.depth (f : FileDescriptor) : Nat :=
  deepest (f.messageTypes.map (·.depth) ++ f.enumTypes.map (·.depth) ++
    f.sourceInfo.toList.map (·.depth)) + 1

def DescriptorSet.depth (s : DescriptorSet) : Nat := deepest (s.files.map (·.depth))

def PluginRequest.depth (r : PluginRequest) : Nat := deepest (r.files.map (·.depth))

/-! ## What has no parts of its own -/

section Leaves

variable {levels : Nat} (positive : 0 < levels)
include positive

theorem FieldDescriptor.reads (f : FieldDescriptor) : Decodes (read levels) f.encode f := by
  obtain ⟨name, number, label, type, typeName, defaultValue, oneofIndex, jsonName, optional⟩ := f
  refine .readNested positive
    (Feeds.optional 1 .string (by decide) (mk · none none none none none none none none) ?_ _
    |>.append (.optional 3 .int32 (by decide) (mk name · none none none none none none none) ?_ _)
    |>.append (.optional 4 .int32 (by decide) (mk name number · none none none none none none) ?_ _)
    |>.append (.optional 5 .int32 (by decide) (mk name number label · none none none none none) ?_ _)
    |>.append (.optional 6 .string (by decide)
      (mk name number label type · none none none none) ?_ _)
    |>.append (.optional 7 .string (by decide)
      (mk name number label type typeName · none none none) ?_ _)
    |>.append (.optional 9 .int32 (by decide)
      (mk name number label type typeName defaultValue · none none) ?_ _)
    |>.append (.optional 10 .string (by decide)
      (mk name number label type typeName defaultValue oneofIndex · none) ?_ _)
    |>.append (.optional 17 .bool (by decide)
      (mk name number label type typeName defaultValue oneofIndex jsonName ·) ?_ _))
  all_goals
    intros
    simp only [*, Record.text, Record.int32, Record.bool]
    rfl

theorem EnumValueDescriptor.reads (v : EnumValueDescriptor) : Decodes (read levels) v.encode v := by
  refine .readNested positive
    (Feeds.optional 1 .string (by decide) (mk · none) ?_ _
    |>.append (.optional 2 .int32 (by decide) (mk v.name ·) ?_ _))
  all_goals
    intros
    simp only [*, Record.text, Record.int32]
    rfl

theorem OneofDescriptor.reads (o : OneofDescriptor) : Decodes (read levels) o.encode o := by
  refine .readNested positive (Feeds.optional 1 .string (by decide) mk ?_ _)
  intros
  simp only [*, Record.text]
  rfl

theorem MessageOptions.reads (o : MessageOptions) : Decodes (read levels) o.encode o := by
  refine .readNested positive (Feeds.optional 7 .bool (by decide) mk ?_ _)
  intros
  simp only [*, Record.bool]
  rfl

theorem SourceLocation.reads (l : SourceLocation) : Decodes (read levels) l.encode l := by
  obtain ⟨path, span, leadingComments, trailingComments, detached⟩ := l
  refine .readNested positive
    (Feeds.packed 1 .int32 (by decide) rfl (mk · [] none none []) ?_ _
    |>.append (.packed 2 .int32 (by decide) rfl (mk path · none none []) ?_ _)
    |>.append (.optional 3 .string (by decide) (mk path span · none []) ?_ _)
    |>.append (.optional 4 .string (by decide) (mk path span leadingComments · []) ?_ _)
    |>.append (.repeated 6 .string (by decide)
      (mk path span leadingComments trailingComments ·) ?_ _))
  case refine_1 | refine_2 =>
    intros
    simp only [*, Record.appendTo]
    rfl
  all_goals
    intros
    simp only [*, Record.text]
    rfl

end Leaves

/-! ## What is declared in files -/

theorem EnumDescriptor.reads (e : EnumDescriptor) {levels : Nat} (h : e.depth ≤ levels) :
    Decodes (read levels) e.encode e := by
  obtain ⟨positive, inside⟩ := levels_of_le h
  have hvalues : ∀ v ∈ e.values, Decodes (EnumValueDescriptor.read (levels - 1)) v.encode v :=
    fun v hv => v.reads (inside 1 (List.mem_map.2 ⟨v, hv, rfl⟩))
  refine .readNested positive
    (Feeds.optional 1 .string (by decide) (mk · []) ?_ _
    |>.append (.parts 2 (by decide) (mk e.name ·) ?_ hvalues))
  all_goals
    intros
    simp only [*, Record.text]
    rfl

theorem SourceInfo.reads (i : SourceInfo) {levels : Nat} (h : i.depth ≤ levels) :
    Decodes (read levels) i.encode i := by
  obtain ⟨positive, inside⟩ := levels_of_le h
  have hlocations : ∀ l ∈ i.locations, Decodes (SourceLocation.read (levels - 1)) l.encode l :=
    fun l hl => l.reads (inside 1 (List.mem_map.2 ⟨l, hl, rfl⟩))
  refine .readNested positive (Feeds.parts 1 (by decide) mk ?_ hlocations)
  intros
  simp only [*]
  rfl

theorem messageRecords_eq_flatMap (number : Nat) (ms : List MessageDescriptor) :
    messageRecords number ms = ms.flatMap fun m => nestedRecord number m.encode := by
  induction ms with
  | nil => rw [messageRecords, List.flatMap_nil]
  | cons m rest ih => rw [messageRecords, ih, List.flatMap_cons]

/-- The depths of the messages in a message, as those of a list. -/
theorem messageDepths_eq_map (ms : List MessageDescriptor) :
    messageDepths ms = ms.map (·.depth) := by
  induction ms with
  | nil => rw [messageDepths, List.map_nil]
  | cons m rest ih => rw [messageDepths, ih, List.map_cons]

/-- One level of messages: what lies inside is read back with a level less. -/
theorem MessageDescriptor.reads_succ (m : MessageDescriptor) {levels : Nat}
    (h : m.depth ≤ levels + 1)
    (inner : ∀ n : MessageDescriptor, n.depth ≤ levels → Decodes (read levels) n.encode n) :
    Decodes (read (levels + 1)) m.encode m := by
  obtain ⟨name, fields, nestedTypes, enumTypes, options, oneofs⟩ := m
  rw [depth, messageDepths_eq_map] at h
  have inside := (levels_of_le h).2
  simp only [List.forall_mem_append, Nat.add_sub_cancel] at inside
  obtain ⟨⟨⟨⟨hfields, hnested⟩, henums⟩, hoptions⟩, honeofs⟩ := inside
  have fieldsRead : ∀ f ∈ fields, Decodes (FieldDescriptor.read levels) f.encode f :=
    fun f hf => f.reads (hfields 1 (List.mem_map.2 ⟨f, hf, rfl⟩))
  have nestedRead : ∀ n ∈ nestedTypes, Decodes (read levels) n.encode n :=
    fun n hn => inner n (hnested _ (List.mem_map.2 ⟨n, hn, rfl⟩))
  have enumsRead : ∀ e ∈ enumTypes, Decodes (EnumDescriptor.read levels) e.encode e :=
    fun e he => e.reads (henums _ (List.mem_map.2 ⟨e, he, rfl⟩))
  have optionsRead : ∀ o ∈ options, Decodes (MessageOptions.read levels) o.encode o :=
    fun o ho => o.reads (hoptions 1 (List.mem_map.2 ⟨o, Option.mem_toList.2 ho, rfl⟩))
  have oneofsRead : ∀ o ∈ oneofs, Decodes (OneofDescriptor.read levels) o.encode o :=
    fun o ho => o.reads (honeofs 1 (List.mem_map.2 ⟨o, ho, rfl⟩))
  intro fits
  rw [read]
  rw [encode, messageRecords_eq_flatMap] at fits ⊢
  refine Feeds.fold_eq_ok
    (Feeds.optional 1 .string (by decide) (mk · [] [] [] none []) ?_ _
    |>.append (.parts 2 (by decide) (mk name · [] [] none []) ?_ fieldsRead)
    |>.append (.parts 3 (by decide) (mk name fields · [] none []) ?_ nestedRead)
    |>.append (.parts 4 (by decide) (mk name fields nestedTypes · none []) ?_ enumsRead)
    |>.append (.optionalPart 7 (by decide) (mk name fields nestedTypes enumTypes · []) ?_ optionsRead)
    |>.append (.parts 8 (by decide) (mk name fields nestedTypes enumTypes options) ?_ oneofsRead))
    fits
  all_goals
    intros
    simp only [*, step, Record.text]
    rfl

theorem MessageDescriptor.reads (m : MessageDescriptor) {levels : Nat} (h : m.depth ≤ levels) :
    Decodes (read levels) m.encode m := by
  induction levels generalizing m with
  | zero =>
    cases m
    rw [depth] at h
    omega
  | succ levels ih => exact m.reads_succ h ih

theorem FileDescriptor.reads (f : FileDescriptor) {levels : Nat} (h : f.depth ≤ levels) :
    Decodes (read levels) f.encode f := by
  obtain ⟨name, package, dependencies, messageTypes, enumTypes, sourceInfo, dialect⟩ := f
  obtain ⟨positive, inside⟩ := levels_of_le h
  simp only [List.forall_mem_append] at inside
  obtain ⟨⟨hmessages, henums⟩, hinfo⟩ := inside
  have messagesRead : ∀ m ∈ messageTypes,
      Decodes (MessageDescriptor.read (levels - 1)) m.encode m :=
    fun m hm => m.reads (hmessages _ (List.mem_map.2 ⟨m, hm, rfl⟩))
  have enumsRead : ∀ e ∈ enumTypes, Decodes (EnumDescriptor.read (levels - 1)) e.encode e :=
    fun e he => e.reads (henums _ (List.mem_map.2 ⟨e, he, rfl⟩))
  have infoRead : ∀ i ∈ sourceInfo, Decodes (SourceInfo.read (levels - 1)) i.encode i :=
    fun i hi => i.reads (hinfo _ (List.mem_map.2 ⟨i, Option.mem_toList.2 hi, rfl⟩))
  refine .readNested positive ?_
  rw [encode, messageRecords_eq_flatMap]
  refine (Feeds.optional 1 .string (by decide) (mk · none [] [] [] none none) ?_ _
    |>.append (.optional 2 .string (by decide) (mk name · [] [] [] none none) ?_ _)
    |>.append (.repeated 3 .string (by decide) (mk name package · [] [] none none) ?_ _)
    |>.append (.parts 4 (by decide) (mk name package dependencies · [] none none) ?_ messagesRead)
    |>.append (.parts 5 (by decide)
      (mk name package dependencies messageTypes · none none) ?_ enumsRead)
    |>.append (.optionalPart 9 (by decide)
      (mk name package dependencies messageTypes enumTypes · none) ?_ infoRead)
    |>.append (.optional 12 .string (by decide)
      (mk name package dependencies messageTypes enumTypes sourceInfo ·) ?_ _))
  all_goals
    intros
    simp only [*, Record.text]
    rfl

/-! ## Files and the plugin protocol -/

theorem filesRead {files : List FileDescriptor} (h : deepest (files.map (·.depth)) ≤ nestingLimit) :
    ∀ f ∈ files, Decodes (FileDescriptor.read nestingLimit) f.encode f :=
  fun f hf => f.reads (deepest_le_iff.1 h _ (List.mem_map.2 ⟨f, hf, rfl⟩))

theorem DescriptorSet.decode_encode (s : DescriptorSet) (h : s.depth ≤ nestingLimit)
    (fits : s.encode.Addressable) : decode s.encode = .ok s := by
  refine Feeds.fold_eq_ok (Feeds.parts 1 (by decide) mk ?_ (filesRead h)) fits
  intros
  simp only [*]
  rfl

theorem PluginRequest.decode_encode (r : PluginRequest) (h : r.depth ≤ nestingLimit)
    (fits : r.encode.Addressable) : decode r.encode = .ok r := by
  refine Feeds.fold_eq_ok
    (Feeds.repeated 1 .string (by decide) (mk · none []) ?_ _
    |>.append (.optional 2 .string (by decide) (mk r.filesToGenerate · []) ?_ _)
    |>.append (.parts 15 (by decide) (mk r.filesToGenerate r.parameter ·) ?_ (filesRead h))) fits
  all_goals
    intros
    simp only [*, Record.text]
    rfl

namespace PluginResponse

theorem file_reads (f : GeneratedFile) :
    Decodes (readFile nestingLimit) (encodeFile f) f := by
  refine .readNested (by decide)
    (Feeds.optional 1 .string (by decide) (fun name => GeneratedFile.mk (name.getD "") "") ?_ _
    |>.append (.optional 15 .string (by decide)
      (fun content => GeneratedFile.mk f.name (content.getD "")) ?_ _))
  all_goals
    intros
    simp only [*, Record.text]
    rfl

theorem decode_encode (r : PluginResponse) (fits : r.encode.Addressable) :
    decode r.encode = .ok r := by
  have filesRead : ∀ f ∈ r.files, Decodes (readFile nestingLimit) (encodeFile f) f :=
    fun f _ => file_reads f
  refine Feeds.fold_eq_ok
    (Feeds.optional 1 .string (by decide) (mk · 0 []) ?_ _
    |>.append ?features
    |>.append (.parts 15 (by decide) (mk r.error r.supportedFeatures ·) ?_ filesRead)) fits
  case features =>
    -- No features are written as nothing, and that is what a reader starts from.
    by_cases hnone : r.supportedFeatures = 0
    · rw [if_pos hnone, hnone]
      exact .nil _
    · rw [if_neg hnone]
      refine .keyed 2 .uint64 (by decide) r.supportedFeatures fun record hnumber hvalue => ?_
      simp only [hnumber, hvalue]
      rfl
  all_goals
    intros
    simp only [*, Record.text]
    rfl

end PluginResponse

/-- Sets of files, and requests, in which nothing lies more than a hundred levels deep, and all
    responses are read back as they were written. -/
theorem decode_encode_descriptors :
    (∀ s : DescriptorSet, s.depth ≤ 100 → s.encode.Addressable →
      DescriptorSet.decode s.encode = .ok s) ∧
    (∀ r : PluginRequest, r.depth ≤ 100 → r.encode.Addressable →
      PluginRequest.decode r.encode = .ok r) ∧
    ∀ r : PluginResponse, r.encode.Addressable → PluginResponse.decode r.encode = .ok r :=
  ⟨DescriptorSet.decode_encode, PluginRequest.decode_encode, PluginResponse.decode_encode⟩

/-- A message with so many around it, each inside the next.  The innermost has an enum, and
    options that say nothing. -/
def tower : Nat → MessageDescriptor
  | 0 =>
    { name := some ""
      fields := [{ number := some (-1), oneofIndex := some 0, proto3Optional := some false }]
      enumTypes := [{ values := [{ name := some "UP", number := some (-7) }, {}] }]
      options := some {}
      oneofs := [{}] }
  | n + 1 => { nestedTypes := [tower n], options := some { mapEntry := some false } }

/-- A part is written with at most twenty bytes more than it has. -/
theorem length_nestedRecord_le (number : Nat) (hnumber : IsFieldNumber number) {bytes : Bytes}
    {n : Nat} (h : bytes.length ≤ n) (hn : n ≤ 8192) :
    (nestedRecord number bytes).length ≤ n + 20 := by
  have haddressable : bytes.Addressable := Nat.lt_of_le_of_lt h (by omega)
  have hle := Record.length_keyed_delimit_le hnumber haddressable
  rw [nestedRecord]
  omega

theorem length_encode_tower {n : Nat} (h : n ≤ 100) : (tower n).encode.length ≤ 64 + 32 * n := by
  induction n with
  | zero => decide +kernel
  | succ n ih =>
    have hinner := length_nestedRecord_le 3 (by decide) (ih (by omega)) (by omega)
    have hoptions : (nestedRecord 7 (MessageOptions.encode ⟨some false⟩)).length ≤ 4 := by
      decide +kernel
    simp only [tower, MessageDescriptor.encode, messageRecords_eq_flatMap, optionalRecord,
      List.flatMap_cons, List.flatMap_nil, Option.toList_some, List.append_nil, List.nil_append,
      List.length_append]
    omega

def comments : SourceInfo :=
  { locations := [{ path := [4, 0, -3], leadingComments := some "" }, {}] }

def commented (m : MessageDescriptor) : FileDescriptor :=
  { messageTypes := [m], sourceInfo := some comments }

theorem length_encode_commented {m : MessageDescriptor} (h : m.encode.length ≤ 4096) :
    (commented m).encode.length ≤ 8192 := by
  have hmessage := length_nestedRecord_le 4 (by decide) h (by decide)
  have hinfo : (nestedRecord 9 comments.encode).length ≤ 64 := by decide +kernel
  have hdependencies : repeatedRecords 3 .string ([] : List String) = [] := rfl
  simp only [FileDescriptor.encode, commented, messageRecords_eq_flatMap, optionalRecord,
    hdependencies, List.flatMap_cons, List.flatMap_nil, Option.toList_some, List.append_nil,
    List.nil_append, List.length_append]
  omega

/-- A file as deep as files may be. -/
def tallFile : FileDescriptor := commented (tower 96)

theorem length_encode_tallFile : tallFile.encode.length ≤ 8192 :=
  length_encode_commented (Nat.le_trans (length_encode_tower (by decide)) (by decide))

def blankFile : FileDescriptor := { sourceInfo := some {} }

theorem addressable_tall : (DescriptorSet.encode ⟨[tallFile, blankFile]⟩).Addressable := by
  have htall := length_nestedRecord_le 1 (by decide) length_encode_tallFile (by decide)
  have hblank : (nestedRecord 1 blankFile.encode).length ≤ 64 := by decide +kernel
  simp only [Bytes.Addressable, DescriptorSet.encode, List.flatMap_cons, List.flatMap_nil,
    List.append_nil, List.length_append]
  omega

theorem addressable_tall_request :
    (PluginRequest.encode ⟨["a.proto"], some "", [tallFile]⟩).Addressable := by
  have htall := length_nestedRecord_le 15 (by decide) length_encode_tallFile (by decide)
  have hrest : (repeatedRecords 1 .string ["a.proto"] ++
      optionalRecord 2 .string (some "")).length ≤ 64 := by decide +kernel
  rw [PluginRequest.encode, List.flatMap_singleton, Bytes.Addressable, List.length_append]
  exact Nat.lt_of_le_of_lt (Nat.add_le_add hrest htall) (by decide)

theorem decode_encode_tall :
    FileDescriptor.depth tallFile = 100 ∧
      DescriptorSet.decode (DescriptorSet.encode ⟨[tallFile, blankFile]⟩) =
        .ok ⟨[tallFile, blankFile]⟩ ∧
      PluginRequest.decode (PluginRequest.encode ⟨["a.proto"], some "", [tallFile]⟩) =
        .ok ⟨["a.proto"], some "", [tallFile]⟩ ∧
      PluginResponse.decode (PluginResponse.encode ⟨some "", 0, [⟨"", "fn"⟩]⟩) =
        .ok ⟨some "", 0, [⟨"", "fn"⟩]⟩ :=
  ⟨by decide +kernel, decode_encode_descriptors.1 _ (by decide +kernel) addressable_tall,
    decode_encode_descriptors.2.1 _ (by decide +kernel) addressable_tall_request,
    decode_encode_descriptors.2.2 _ (by decide +kernel)⟩

end Protobuf
