import Protobuf.Proofs.Names.Components

/-! # The end of a visit

A message that leads back to nothing in front of itself closes its component, which is
what stands above it on the stack.  Any other message stays on the stack.

* `Components.popTo_eq`: what is taken from the stack.
* `Components.Scan.leads_iff_mem`: what is taken is the component of the message.
* `Components.Scan.leave`: the end of a visit, either way.
-/

namespace Protobuf.Components

variable {g : MessageGraph} {path : List Nat} {base c : Components} {x : Nat} {new seen : List Nat}

/-- The state once the messages down to one of them are taken from the stack. -/
def closing (c : Components) (part below : List Nat) : Components :=
  { c with
    stack := below
    onStack := fun u => if u ∈ part then false else c.onStack u
    component := fun u => if u ∈ part then c.count else c.component u }

theorem component_closing_of_mem (c : Components) {part below : List Nat} {u : Nat}
    (hu : u ∈ part) : (c.closing part below).component u = c.count := if_pos hu

theorem popTo_eq (c : Components) {below : List Nat} (hx : x ∉ new) :
    popTo x (new ++ x :: below) c = c.closing (new ++ [x]) below := by
  induction new generalizing c with
  | nil =>
    -- The induction is on what stands above the message, with the tables left open: every
    -- message that is taken changes them.
    rw [List.nil_append, popTo, if_pos rfl]
    unfold closing setAt
    simp only [List.nil_append, List.mem_singleton]
  | cons member rest ih =>
    rw [List.mem_cons, not_or] at hx
    rw [List.cons_append, popTo, if_neg (Ne.symm hx.1), ih _ hx.2]
    unfold closing setAt
    congr 1
    · funext u
      by_cases heq : u = member
      · simp [heq]
      · simp [heq]
    · funext u
      by_cases heq : u = member
      · simp [heq]
      · simp [heq]

namespace Scan

/-- A message that the visit found is not on the way to it. -/
theorem not_mem_path (hbase : Inv g path base) (h : Scan g path x base c new seen) {u : Nat}
    (hu : u ∈ new) : u ∉ x :: path := by
  rw [List.mem_cons, not_or]
  constructor
  · rintro rfl
    -- The numbers on the stack fall strictly, so none stands there twice.
    have hsorted := h.inv.sorted
    rw [h.ext.stack, List.append_assoc] at hsorted
    exact absurd ((List.pairwise_append.1 hsorted).2.2 u hu u (by simp)) (Nat.lt_irrefl _)
  · intro hpath
    exact h.ext.fresh u (List.mem_append_left _ hu) (hbase.found u (hbase.path_mem u hpath))

/-- All fields of what the visit found were followed. -/
theorem found_target (hbase : Inv g path base) (h : Scan g path x base c new seen)
    (hall : ∀ v ∈ g.targets x, v ∈ seen) {u v : Nat} (hu : u ∈ new ++ [x]) (hv : v ∈ g.targets u) :
    c.Found v := by
  rcases List.mem_append.1 hu with hu | hu
  · have hmem : u ∈ c.stack := by
      rw [h.ext.stack, List.append_assoc]
      exact List.mem_append_left _ hu
    exact h.inv.followed u (h.inv.found u hmem) (h.not_mem_path hbase hu) v hv
  · rw [List.mem_singleton.1 hu] at hv
    exact h.seen_found v (hall v hv)

theorem mem_stack (h : Scan g path x base c new seen) {u : Nat} :
    u ∈ c.stack ↔ u ∈ new ++ [x] ∨ u ∈ base.stack := by
  rw [h.ext.stack, List.mem_append]

theorem not_mem_base (hbase : Inv g path base) (h : Scan g path x base c new seen) {u : Nat}
    (hu : u ∈ new ++ [x]) : u ∉ base.stack :=
  fun hmem => h.ext.fresh u hu (hbase.found u hmem)

/-- No message of the visit has a field to a message below it with a number that is less than
    what the visit leads back to. -/
theorem low_of_mem (h : Scan g path x base c new seen) (hall : ∀ v ∈ g.targets x, v ∈ seen)
    {u v : Nat} (hu : u ∈ new ++ [x]) (hv : v ∈ g.targets u) (hmem : v ∈ base.stack) :
    c.lowLink x ≤ base.rank v := by
  rcases List.mem_append.1 hu with hu | hu
  · exact h.low_new u hu v hv hmem
  · rw [List.mem_singleton.1 hu] at hv
    exact h.low_seen v (hall v hv) hmem

/-- The messages that a visit found lead to no message below the visit if it leads back to
    nothing in front of itself. -/
theorem mem_or_done_of_mem_targets (hbase : Inv g path base) (h : Scan g path x base c new seen)
    (hall : ∀ v ∈ g.targets x, v ∈ seen) (hroot : c.lowLink x = base.nextIndex) {u v : Nat}
    (hu : u ∈ new ++ [x]) (hv : v ∈ g.targets u) : v ∈ new ++ [x] ∨ c.Done v := by
  have hfound := h.found_target hbase hall hu hv
  by_cases hstack : v ∈ c.stack
  · rcases h.mem_stack.1 hstack with hmem | hmem
    · exact .inl hmem
    · -- A field to a message below would have been told by the number that `x` leads back to.
      have hlow := h.low_of_mem hall hu hv hmem
      have hlt := hbase.rank_lt v (hbase.found v hmem)
      rw [hroot] at hlow
      exact absurd hlt (Nat.not_lt.2 hlow)
  · exact .inr ⟨hfound, hstack⟩

theorem mem_or_done_of_leads (hbase : Inv g path base) (h : Scan g path x base c new seen)
    (hall : ∀ v ∈ g.targets x, v ∈ seen) (hroot : c.lowLink x = base.nextIndex) {u v : Nat}
    (hu : u ∈ new ++ [x]) (hleads : g.Leads u v) : v ∈ new ++ [x] ∨ c.Done v := by
  -- Neither what the visit found nor what is closed has a field that leads elsewhere.
  refine hleads.closed (P := fun w => w ∈ new ++ [x] ∨ c.Done w) (.inl hu) ?_
  intro a ha b hb
  rcases ha with ha | ha
  · exact h.mem_or_done_of_mem_targets hbase hall hroot ha hb
  · exact .inr (h.inv.closed a ha b hb)

/-- What the visit put on the stack is led to by its message. -/
theorem leads_of_mem (h : Scan g path x base c new seen) {u : Nat} (hu : u ∈ new ++ [x]) :
    g.Leads x u := by
  have hstack := h.mem_stack.2 (.inl hu)
  have hself := h.mem_stack.2 (.inl (List.mem_append_right new (List.mem_singleton_self x)))
  refine h.inv.descends x hself u hstack ?_
  rw [h.rank_self]
  exact h.ext.rank_ge u (h.inv.found u hstack) (h.ext.fresh u hu)

/-- And if the message leads back to nothing in front of itself, leads back to it. -/
theorem leads_back_of_mem (hbase : Inv g path base) (h : Scan g path x base c new seen)
    (hall : ∀ v ∈ g.targets x, v ∈ seen) (hroot : c.lowLink x = base.nextIndex) {u : Nat}
    (hu : u ∈ new ++ [x]) : g.Leads u x := by
  obtain ⟨p, hp, _, hleads⟩ := h.inv.ascends u (h.mem_stack.2 (.inl hu))
  rcases List.mem_cons.1 hp with rfl | hp
  · exact hleads
  · -- The way to the visit is below it, and nothing of what was found leads there.
    have hmem := hbase.path_mem p hp
    rcases h.mem_or_done_of_leads hbase hall hroot hu hleads with hnew | hdone
    · exact absurd hmem (h.not_mem_base hbase hnew)
    · exact absurd (h.mem_stack.2 (.inr hmem)) hdone.2

/-- The component of a message that leads back to nothing in front of itself is what its
    visit put on the stack. -/
theorem leads_iff_mem (hbase : Inv g path base) (h : Scan g path x base c new seen)
    (hall : ∀ v ∈ g.targets x, v ∈ seen) (hroot : c.lowLink x = base.nextIndex) {u v : Nat}
    (hu : u ∈ new ++ [x]) : g.Leads u v ∧ g.Leads v u ↔ v ∈ new ++ [x] := by
  constructor
  · rintro ⟨hto, hback⟩
    rcases h.mem_or_done_of_leads hbase hall hroot hu hto with hmem | hdone
    · exact hmem
    · -- A component that is closed leads to nothing that is still on the stack.
      have hdone' : c.Done u := hback.closed hdone h.inv.closed
      exact absurd (h.mem_stack.2 (.inl hu)) hdone'.2
  · intro hv
    exact ⟨(h.leads_back_of_mem hbase hall hroot hu).trans (h.leads_of_mem hv),
      (h.leads_back_of_mem hbase hall hroot hv).trans (h.leads_of_mem hu)⟩

/-! ## Both ends -/

theorem not_mem_of_done (h : Scan g path x base c new seen) {u : Nat} (hu : c.Done u) :
    u ∉ new ++ [x] := fun hmem => hu.2 (h.mem_stack.2 (.inl hmem))

theorem done_closing (hbase : Inv g path base) (h : Scan g path x base c new seen) {u : Nat} :
    (c.closing (new ++ [x]) base.stack).Done u ↔ u ∈ new ++ [x] ∨ c.Done u := by
  constructor
  · rintro ⟨hfound, hmem⟩
    by_cases hpart : u ∈ new ++ [x]
    · exact .inl hpart
    · exact .inr ⟨hfound, fun hstack => (h.mem_stack.1 hstack).elim hpart hmem⟩
  · rintro (hpart | hdone)
    · exact ⟨h.inv.found u (h.mem_stack.2 (.inl hpart)), h.not_mem_base hbase hpart⟩
    · exact ⟨hdone.1, fun hmem => hdone.2 (h.mem_stack.2 (.inr hmem))⟩

/-- The message is no longer on the way at the end of its visit, but all of its fields were
    followed. -/
theorem followed_of_all (h : Scan g path x base c new seen) (hall : ∀ v ∈ g.targets x, v ∈ seen)
    {u : Nat} (hu : c.Found u) (hpath : u ∉ path) : ∀ v ∈ g.targets u, c.Found v := by
  intro v hv
  by_cases hself : u = x
  · exact h.seen_found v (hall v (hself ▸ hv))
  · exact h.inv.followed u hu (fun hmem => (List.mem_cons.1 hmem).elim hself hpath) v hv

theorem component_closing_of_done (h : Scan g path x base c new seen) {u : Nat} (hu : c.Done u) :
    (c.closing (new ++ [x]) base.stack).component u = c.component u :=
  if_neg (h.not_mem_of_done hu)

/-- Components that were closed before have lesser numbers than the one that is closed last. -/
theorem component_closing_ne (h : Scan g path x base c new seen) {u v : Nat} (hu : u ∈ new ++ [x])
    (hv : c.Done v) : (c.closing (new ++ [x]) base.stack).component u ≠
      (c.closing (new ++ [x]) base.stack).component v := by
  rw [component_closing_of_mem c hu, h.component_closing_of_done hv]
  exact Nat.ne_of_gt (h.inv.component_lt v hv)

theorem component_closing_iff (hbase : Inv g path base) (h : Scan g path x base c new seen)
    (hall : ∀ v ∈ g.targets x, v ∈ seen) (hroot : c.lowLink x = base.nextIndex) {u v : Nat}
    (hu : (c.closing (new ++ [x]) base.stack).Done u)
    (hv : (c.closing (new ++ [x]) base.stack).Done v) :
    (c.closing (new ++ [x]) base.stack).component u =
        (c.closing (new ++ [x]) base.stack).component v ↔ g.Leads u v ∧ g.Leads v u := by
  rcases (h.done_closing hbase).1 hu with hupart | hudone
  · rw [h.leads_iff_mem hbase hall hroot hupart]
    rcases (h.done_closing hbase).1 hv with hvpart | hvdone
    · rw [component_closing_of_mem c hupart, component_closing_of_mem c hvpart]
      exact iff_of_true rfl hvpart
    · exact iff_of_false (h.component_closing_ne hupart hvdone) (h.not_mem_of_done hvdone)
  · rcases (h.done_closing hbase).1 hv with hvpart | hvdone
    · rw [and_comm, h.leads_iff_mem hbase hall hroot hvpart]
      exact iff_of_false (h.component_closing_ne hvpart hudone).symm (h.not_mem_of_done hudone)
    · rw [h.component_closing_of_done hudone, h.component_closing_of_done hvdone]
      exact h.inv.component_iff u v hudone hvdone

theorem onStack_closing (hbase : Inv g path base) (h : Scan g path x base c new seen) (u : Nat) :
    (c.closing (new ++ [x]) base.stack).onStack u = true ↔ u ∈ base.stack := by
  show (if u ∈ new ++ [x] then false else c.onStack u) = true ↔ u ∈ base.stack
  by_cases hpart : u ∈ new ++ [x]
  · rw [if_pos hpart]
    exact iff_of_false Bool.false_ne_true (h.not_mem_base hbase hpart)
  · rw [if_neg hpart, h.inv.onStack u, h.mem_stack]
    exact ⟨fun hmem => hmem.resolve_left hpart, .inr⟩

/-- The invariant once the component of the message is closed. -/
theorem inv_closing (hbase : Inv g path base) (h : Scan g path x base c new seen)
    (hall : ∀ v ∈ g.targets x, v ∈ seen) (hroot : c.lowLink x = base.nextIndex) :
    Inv g path { c.closing (new ++ [x]) base.stack with count := c.count + 1 } := by
  have hrank : ∀ u ∈ base.stack, c.rank u = base.rank u := fun u hu =>
    h.ext.rank_eq (hbase.found u hu)
  constructor
  case lt_length => exact h.inv.lt_length
  case rank_lt => exact h.inv.rank_lt
  case found => exact fun u hu => h.ext.found (hbase.found u hu)
  case sorted => exact hbase.sorted_of_rank hrank
  case onStack => exact fun u => (h.onStack_closing hbase u :)
  case path_nodup => exact hbase.path_nodup
  case path_mem => exact hbase.path_mem
  case followed => exact fun u hu hpath => h.followed_of_all hall hu hpath
  case closed =>
    intro u hu v hv
    refine (h.done_closing hbase).2 ?_
    rcases (h.done_closing hbase).1 hu with hpart | hdone
    · exact h.mem_or_done_of_mem_targets hbase hall hroot hpart hv
    · exact .inr (h.inv.closed u hdone v hv)
  case descends => exact fun u hu v hv hle => hbase.descends_of_rank hrank hu hv hle
  case ascends => exact fun v hv => hbase.ascends_of_rank hrank hv
  case component_lt =>
    intro u hu
    show (c.closing (new ++ [x]) base.stack).component u < c.count + 1
    rcases (h.done_closing hbase).1 hu with hpart | hdone
    · rw [component_closing_of_mem c hpart]
      exact Nat.lt_succ_self _
    · rw [h.component_closing_of_done hdone]
      exact Nat.lt_succ_of_lt (h.inv.component_lt u hdone)
  case component_iff =>
    intro u v hu hv
    exact h.component_closing_iff hbase hall hroot hu hv

/-- The invariant once the message stays on the stack, since it leads to a message below. -/
theorem inv_staying (hbase : Inv g path base) (h : Scan g path x base c new seen)
    (hall : ∀ v ∈ g.targets x, v ∈ seen) {w : Nat} (hw : w ∈ base.stack) (hleads : g.Leads x w) :
    Inv g path c :=
  { h.inv with
    path_nodup := hbase.path_nodup
    path_mem := fun p hp => h.mem_stack.2 (.inr (hbase.path_mem p hp))
    followed := fun u hu hpath => h.followed_of_all hall hu hpath
    ascends := by
      intro v hv
      obtain ⟨p, hp, hle, hback⟩ := h.inv.ascends v hv
      rcases List.mem_cons.1 hp with rfl | hp
      · -- Through the message to the one below, and from there back to the way.
        obtain ⟨q, hq, hqle, hqback⟩ := hbase.ascends w hw
        have hqmem := hbase.path_mem q hq
        have hlt := hbase.rank_lt q (hbase.found q hqmem)
        refine ⟨q, hq, ?_, (hback.trans hleads).trans hqback⟩
        rw [h.rank_self] at hle
        rw [h.ext.rank_eq (hbase.found q hqmem)]
        exact Nat.le_trans (Nat.le_of_lt hlt) hle
      · exact ⟨p, hp, hle, hback⟩ }

/-- The end of a visit, once all fields were followed. -/
theorem leave (hbase : Inv g path base) (h : Scan g path x base c new seen)
    (hall : ∀ v ∈ g.targets x, v ∈ seen) : ∃ new', Visited g path x base (c.leave x) new' := by
  -- The visit closes a component exactly if the message leads back to no lesser number.
  by_cases hroot : c.lowLink x = base.nextIndex
  · have hx : x ∉ new := fun hmem => h.not_mem_path hbase hmem List.mem_cons_self
    have hpop : popTo x c.stack c = c.closing (new ++ [x]) base.stack := by
      rw [h.ext.stack, List.append_assoc]
      exact popTo_eq c hx
    have hleave : c.leave x = { c.closing (new ++ [x]) base.stack with count := c.count + 1 } := by
      unfold Components.leave
      rw [h.index_self, hroot, if_pos rfl, hpop]
      rfl
    rw [hleave]
    refine ⟨[], h.inv_closing hbase hall hroot, ?_, h.found_self, ?_, ?_⟩
    · exact
        { stack := rfl
          index := h.ext.index
          lowLink := h.ext.lowLink
          fresh := fun _ hu => by cases hu
          nextIndex := h.ext.nextIndex
          rank_ge := h.ext.rank_ge }
    · intro _ hu
      cases hu
    · exact .inl (Nat.le_of_eq hroot.symm)
  · -- Otherwise the number that it leads back to is that of a message below.
    obtain ⟨w, hw, hrank, hleads⟩ := h.low_spec.resolve_left hroot
    have hleave : c.leave x = c := by
      unfold Components.leave
      rw [h.index_self]
      exact if_neg fun heq => hroot (Option.some.inj heq)
    rw [hleave]
    exact ⟨new ++ [x], h.inv_staying hbase hall hw hleads, h.ext, h.found_self,
      fun u hu v hv hmem => h.low_of_mem hall hu hv hmem, .inr ⟨w, hw, hrank, hleads⟩⟩

end Scan

end Protobuf.Components
