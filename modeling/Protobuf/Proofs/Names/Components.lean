import Protobuf.Proofs.Names.Graph

/-! # What the walk keeps

What holds of the messages at every moment of the walk, and what each of its steps keeps
of that.  A message is found once it has a number, and done once its component is closed;
the messages on the stack are in between.

* `Components.Inv`: what holds while the messages of `path` are being visited.
* `Components.Extends`: what a part of the walk leaves as it was.
* `Components.Scan`: what holds while the fields of one message are followed.
* `Components.scan_enter`: a visit begins.
* `Components.Scan.follow_done`, `Components.Scan.follow_open`, `Components.Scan.follow_new`:
  one field is followed, by what is known of the message that it refers to.
-/

namespace Protobuf

namespace Components

def Found (c : Components) (u : Nat) : Prop := (c.index u).isSome

def rank (c : Components) (u : Nat) : Nat := (c.index u).getD 0

/-- A message whose component is closed. -/
def Done (c : Components) (u : Nat) : Prop := c.Found u ∧ u ∉ c.stack

theorem not_found {c : Components} {u : Nat} (h : c.index u = none) : ¬c.Found u := by
  rw [Found, h]
  exact Bool.false_ne_true

/-- What holds while the messages of `path` are being visited, the last one first. -/
structure Inv (g : MessageGraph) (path : List Nat) (c : Components) : Prop where
  lt_length : ∀ u, c.Found u → u < g.length
  rank_lt : ∀ u, c.Found u → c.rank u < c.nextIndex
  found : ∀ u ∈ c.stack, c.Found u
  sorted : c.stack.Pairwise fun u v => c.rank v < c.rank u
  onStack : ∀ u, c.onStack u = true ↔ u ∈ c.stack
  path_nodup : path.Nodup
  path_mem : ∀ p ∈ path, p ∈ c.stack
  /-- All fields of a message were followed once its visit is over. -/
  followed : ∀ u, c.Found u → u ∉ path → ∀ v ∈ g.targets u, c.Found v
  /-- No component that is closed leads out of those that are. -/
  closed : ∀ u, c.Done u → ∀ v ∈ g.targets u, c.Done v
  /-- What is on the stack leads to all that stands above it. -/
  descends : ∀ u ∈ c.stack, ∀ v ∈ c.stack, c.rank u ≤ c.rank v → g.Leads u v
  /-- What is on the stack leads back to a message that is being visited. -/
  ascends : ∀ v ∈ c.stack, ∃ p ∈ path, c.rank p ≤ c.rank v ∧ g.Leads v p
  component_lt : ∀ u, c.Done u → c.component u < c.count
  component_iff : ∀ u v, c.Done u → c.Done v →
    (c.component u = c.component v ↔ g.Leads u v ∧ g.Leads v u)

/-- What a part of the walk that starts at `base` keeps: it finds the messages `new`. -/
structure Extends (base c : Components) (new : List Nat) : Prop where
  stack : c.stack = new ++ base.stack
  index : ∀ u, base.Found u → c.index u = base.index u
  lowLink : ∀ u, base.Found u → c.lowLink u = base.lowLink u
  fresh : ∀ u ∈ new, ¬base.Found u
  nextIndex : base.nextIndex ≤ c.nextIndex
  rank_ge : ∀ u, c.Found u → ¬base.Found u → base.nextIndex ≤ c.rank u

namespace Extends

variable {base c c' : Components} {new new' : List Nat} {u : Nat}

theorem rank_eq (h : Extends base c new) (hu : base.Found u) : c.rank u = base.rank u := by
  rw [rank, rank, h.index u hu]

theorem found (h : Extends base c new) (hu : base.Found u) : c.Found u := by
  rw [Found, h.index u hu]
  exact hu

theorem trans (h : Extends base c new) (h' : Extends c c' new') : Extends base c' (new' ++ new) where
  stack := by rw [h'.stack, h.stack, List.append_assoc]
  index u hu := by rw [h'.index u (h.found hu), h.index u hu]
  lowLink u hu := by rw [h'.lowLink u (h.found hu), h.lowLink u hu]
  fresh u hmem hu := by
    rcases List.mem_append.1 hmem with hmem | hmem
    · exact h'.fresh u hmem (h.found hu)
    · exact h.fresh u hmem hu
  nextIndex := Nat.le_trans h.nextIndex h'.nextIndex
  rank_ge u hu hbase := by
    by_cases hc : c.Found u
    · rw [h'.rank_eq hc]
      exact h.rank_ge u hc hbase
    · exact Nat.le_trans h.nextIndex (h'.rank_ge u hu hc)

end Extends

/-! ## Entering -/

variable {g : MessageGraph} {path : List Nat} {base c : Components} {x : Nat}

/-- What holds while the fields of `x` are followed: `base` is what was known in front of
    the visit, `new` is what it put on the stack, and `seen` are the targets of the fields
    that were followed. -/
structure Scan (g : MessageGraph) (path : List Nat) (x : Nat) (base c : Components)
    (new seen : List Nat) : Prop where
  inv : Inv g (x :: path) c
  ext : Extends base c (new ++ [x])
  index_self : c.index x = some base.nextIndex
  seen_found : ∀ v ∈ seen, c.Found v
  /-- The number that `x` leads back to is no greater than any that the messages below the
      visit have which a field was followed to. -/
  low_new : ∀ u ∈ new, ∀ v ∈ g.targets u, v ∈ base.stack → c.lowLink x ≤ base.rank v
  low_seen : ∀ v ∈ seen, v ∈ base.stack → c.lowLink x ≤ base.rank v
  /-- The number is that of `x` or of a message below that `x` leads to. -/
  low_spec : c.lowLink x = base.nextIndex ∨
    ∃ w ∈ base.stack, base.rank w = c.lowLink x ∧ g.Leads x w

theorem index_enter (u : Nat) :
    (c.enter x).index u = if u = x then some c.nextIndex else c.index u := rfl

theorem rank_enter_self : (c.enter x).rank x = c.nextIndex := by
  rw [rank, index_enter, if_pos rfl, Option.getD_some]

theorem index_enter_of_found (hx : ¬c.Found x) {u : Nat} (hu : c.Found u) :
    (c.enter x).index u = c.index u := by
  rw [index_enter, if_neg]
  rintro rfl
  exact hx hu

theorem rank_enter_of_found (hx : ¬c.Found x) {u : Nat} (hu : c.Found u) :
    (c.enter x).rank u = c.rank u := by
  rw [rank, rank, index_enter_of_found hx hu]

theorem found_enter {u : Nat} : (c.enter x).Found u ↔ u = x ∨ c.Found u := by
  unfold Found
  rw [index_enter]
  by_cases h : u = x
  · simp [h]
  · simp [h]

theorem done_enter (hx : ¬base.Found x) {u : Nat} : (base.enter x).Done u ↔ base.Done u := by
  have hstack : (base.enter x).stack = x :: base.stack := rfl
  unfold Done
  rw [found_enter, hstack, List.mem_cons, not_or]
  constructor
  · rintro ⟨hfound, hne, hmem⟩
    exact ⟨hfound.resolve_left hne, hmem⟩
  · rintro ⟨hfound, hmem⟩
    exact ⟨.inr hfound, fun heq => hx (heq ▸ hfound), hmem⟩

/-! What the invariant says of the stack rests on the numbers of what stands there, so it
    holds in any state that gives those messages the same numbers. -/

theorem Inv.sorted_of_rank (h : Inv g path base) (hrank : ∀ u ∈ base.stack, c.rank u = base.rank u) :
    base.stack.Pairwise fun u v => c.rank v < c.rank u := by
  refine h.sorted.imp_of_mem ?_
  intro u v hu hv hlt
  rw [hrank u hu, hrank v hv]
  exact hlt

theorem Inv.descends_of_rank (h : Inv g path base)
    (hrank : ∀ u ∈ base.stack, c.rank u = base.rank u) {u v : Nat} (hu : u ∈ base.stack)
    (hv : v ∈ base.stack) (hle : c.rank u ≤ c.rank v) : g.Leads u v := by
  rw [hrank u hu, hrank v hv] at hle
  exact h.descends u hu v hv hle

theorem Inv.ascends_of_rank (h : Inv g path base)
    (hrank : ∀ u ∈ base.stack, c.rank u = base.rank u) {v : Nat} (hv : v ∈ base.stack) :
    ∃ p ∈ path, c.rank p ≤ c.rank v ∧ g.Leads v p := by
  obtain ⟨p, hp, hle, hleads⟩ := h.ascends v hv
  refine ⟨p, hp, ?_, hleads⟩
  rw [hrank p (h.path_mem p hp), hrank v hv]
  exact hle

theorem Inv.rank_enter (h : Inv g path base) (hx : ¬base.Found x) :
    ∀ u ∈ base.stack, (base.enter x).rank u = base.rank u :=
  fun u hu => rank_enter_of_found hx (h.found u hu)

/-- No number is as great as that of the message that was entered last. -/
theorem Inv.rank_enter_lt_self (h : Inv g path base) (hx : ¬base.Found x) :
    ∀ u ∈ base.stack, (base.enter x).rank u < (base.enter x).rank x := by
  intro u hu
  rw [h.rank_enter hx u hu, rank_enter_self]
  exact h.rank_lt u (h.found u hu)

/-- What is on the stack leads back to the way, and so to whatever the way leads to. -/
theorem Inv.leads_of_path (h : Inv g path base) (hpath : ∀ p ∈ path, g.Leads p x) {u : Nat}
    (hu : u ∈ base.stack) : g.Leads u x := by
  obtain ⟨p, hp, _, hleads⟩ := h.ascends u hu
  exact hleads.trans (hpath p hp)

theorem Inv.descends_enter (h : Inv g path base) (hx : ¬base.Found x)
    (hpath : ∀ p ∈ path, g.Leads p x) :
    ∀ u ∈ x :: base.stack, ∀ v ∈ x :: base.stack,
      (base.enter x).rank u ≤ (base.enter x).rank v → g.Leads u v := by
  intro u hu v hv hle
  rcases List.mem_cons.1 hu with hux | hold
  · rcases List.mem_cons.1 hv with hvx | hv
    · rw [hux, hvx]
      exact MessageGraph.Leads.refl
    · exact absurd (hux ▸ h.rank_enter_lt_self hx v hv) (Nat.not_lt.2 hle)
  · rcases List.mem_cons.1 hv with hvx | hv
    · exact hvx ▸ h.leads_of_path hpath hold
    · exact h.descends_of_rank (h.rank_enter hx) hold hv hle

theorem Inv.ascends_enter (h : Inv g path base) (hx : ¬base.Found x) :
    ∀ v ∈ x :: base.stack,
      ∃ p ∈ x :: path, (base.enter x).rank p ≤ (base.enter x).rank v ∧ g.Leads v p := by
  intro v hv
  rcases List.mem_cons.1 hv with rfl | hv
  · exact ⟨v, List.mem_cons_self, Nat.le_refl _, MessageGraph.Leads.refl⟩
  · obtain ⟨p, hp, hspec⟩ := h.ascends_of_rank (h.rank_enter hx) hv
    exact ⟨p, List.mem_cons_of_mem _ hp, hspec⟩

/-- Entering a message that every message on the way leads to. -/
theorem inv_enter (h : Inv g path base) (hx : ¬base.Found x) (hlength : x < g.length)
    (hpath : ∀ p ∈ path, g.Leads p x) : Inv g (x :: path) (base.enter x) := by
  constructor
  case lt_length =>
    intro u hu
    rcases found_enter.1 hu with rfl | hu
    · exact hlength
    · exact h.lt_length u hu
  case rank_lt =>
    intro u hu
    rcases found_enter.1 hu with rfl | hu
    · rw [rank_enter_self]
      exact Nat.lt_succ_self _
    · rw [rank_enter_of_found hx hu]
      exact Nat.lt_succ_of_lt (h.rank_lt u hu)
  case found =>
    intro u hu
    rcases List.mem_cons.1 hu with rfl | hu
    · exact found_enter.2 (.inl rfl)
    · exact found_enter.2 (.inr (h.found u hu))
  case sorted =>
    exact List.pairwise_cons.2 ⟨h.rank_enter_lt_self hx, h.sorted_of_rank (h.rank_enter hx)⟩
  case onStack =>
    intro u
    show (if u = x then true else base.onStack u) = true ↔ u ∈ x :: base.stack
    rw [List.mem_cons, ← h.onStack u]
    by_cases heq : u = x
    · simp [heq]
    · simp [heq]
  case path_nodup =>
    exact List.nodup_cons.2 ⟨fun hmem => hx (h.found x (h.path_mem x hmem)), h.path_nodup⟩
  case path_mem =>
    intro p hp
    rcases List.mem_cons.1 hp with rfl | hp
    · exact List.mem_cons_self
    · exact List.mem_cons_of_mem _ (h.path_mem p hp)
  case followed =>
    intro u hu hpath' v hv
    -- The new message is on the way, so nothing is said of its fields yet.
    rw [List.mem_cons, not_or] at hpath'
    have hfound := (found_enter.1 hu).resolve_left hpath'.1
    exact found_enter.2 (.inr (h.followed u hfound hpath'.2 v hv))
  case closed =>
    intro u hu v hv
    exact (done_enter hx).2 (h.closed u ((done_enter hx).1 hu) v hv)
  case descends => exact h.descends_enter hx hpath
  case ascends => exact h.ascends_enter hx
  case component_lt =>
    intro u hu
    exact h.component_lt u ((done_enter hx).1 hu)
  case component_iff =>
    intro u v hu hv
    exact h.component_iff u v ((done_enter hx).1 hu) ((done_enter hx).1 hv)

/-- A message that is entered is the only one that its visit has found so far. -/
theorem scan_enter (h : Inv g path base) (hx : ¬base.Found x) (hlength : x < g.length)
    (hpath : ∀ p ∈ path, g.Leads p x) : Scan g path x base (base.enter x) [] [] where
  inv := inv_enter h hx hlength hpath
  ext :=
    { stack := rfl
      index := fun u hu => index_enter_of_found hx hu
      lowLink := by
        intro u hu
        show (if u = x then base.nextIndex else base.lowLink u) = base.lowLink u
        exact if_neg fun heq : u = x => hx (heq ▸ hu)
      fresh := by
        intro u hu
        rw [List.mem_singleton.1 hu]
        exact hx
      nextIndex := Nat.le_succ _
      rank_ge := by
        intro u hu hbase
        have hself : u = x := (found_enter.1 hu).resolve_right hbase
        exact Nat.le_of_eq (hself ▸ rank_enter_self.symm) }
  index_self := by rw [index_enter, if_pos rfl]
  seen_found _ hv := by cases hv
  low_new _ hu := by cases hu
  low_seen _ hv := by cases hv
  low_spec := .inl (if_pos rfl)

/-! ## Following a field -/

structure Visited (g : MessageGraph) (path : List Nat) (x : Nat) (base c : Components)
    (new : List Nat) : Prop where
  inv : Inv g path c
  ext : Extends base c new
  found : c.Found x
  low_new : ∀ u ∈ new, ∀ v ∈ g.targets u, v ∈ base.stack → c.lowLink x ≤ base.rank v
  low_spec : base.nextIndex ≤ c.lowLink x ∨
    ∃ w ∈ base.stack, base.rank w = c.lowLink x ∧ g.Leads x w

theorem Inv.lower (h : Inv g path c) (x low : Nat) : Inv g path (c.lower x low) :=
  ⟨h.lt_length, h.rank_lt, h.found, h.sorted, h.onStack, h.path_nodup, h.path_mem, h.followed,
    h.closed, h.descends, h.ascends, h.component_lt, h.component_iff⟩

theorem lowLink_lower_self (c : Components) (x low : Nat) :
    (c.lower x low).lowLink x = min (c.lowLink x) low := if_pos rfl

theorem Extends.lower {new : List Nat} (h : Extends base c new) (hx : ¬base.Found x) (low : Nat) :
    Extends base (c.lower x low) new where
  stack := h.stack
  index := h.index
  lowLink u hu := by
    show (if u = x then _ else c.lowLink u) = base.lowLink u
    rw [if_neg fun heq : u = x => hx (heq ▸ hu), h.lowLink u hu]
  fresh := h.fresh
  nextIndex := h.nextIndex
  rank_ge := h.rank_ge

namespace Scan

variable {new new' seen : List Nat} {v : Nat}

theorem not_found (h : Scan g path x base c new seen) : ¬base.Found x := h.ext.fresh x (by simp)

theorem found_self (h : Scan g path x base c new seen) : c.Found x := by
  rw [Found, h.index_self]
  rfl

theorem rank_self (h : Scan g path x base c new seen) : c.rank x = base.nextIndex := by
  rw [rank, h.index_self, Option.getD_some]

theorem lowLink_le (h : Scan g path x base c new seen) (hbase : Inv g path base) :
    c.lowLink x ≤ base.nextIndex := by
  rcases h.low_spec with heq | ⟨w, hw, heq, _⟩
  · exact Nat.le_of_eq heq
  · rw [← heq]
    exact Nat.le_of_lt (hbase.rank_lt w (hbase.found w hw))

/-- What is on the stack with a number that was given in front of the visit was there. -/
theorem mem_base (h : Scan g path x base c new seen) (hv : v ∈ c.stack)
    (hlt : c.rank v < base.nextIndex) : v ∈ base.stack := by
  have hfound := h.inv.found v hv
  rw [h.ext.stack] at hv
  rcases List.mem_append.1 hv with hv | hv
  · exact absurd (h.ext.rank_ge v hfound (h.ext.fresh v hv)) (Nat.not_le.2 hlt)
  · exact hv

/-- A field to a message that was found and whose component is closed says nothing. -/
theorem follow_done (h : Scan g path x base c new seen) (hv : c.Found v) (hstack : v ∉ c.stack) :
    Scan g path x base c new (v :: seen) :=
  { h with
    seen_found := List.forall_mem_cons.2 ⟨hv, h.seen_found⟩
    low_seen := by
      intro u hu hmem
      rcases List.mem_cons.1 hu with rfl | hu
      · rw [h.ext.stack] at hstack
        exact absurd (List.mem_append_right _ hmem) hstack
      · exact h.low_seen u hu hmem }

/-- A field to a message whose component is open leads back to the number of that message. -/
theorem follow_open (hbase : Inv g path base) (h : Scan g path x base c new seen)
    (hv : v ∈ g.targets x) (hstack : v ∈ c.stack) :
    Scan g path x base (c.lower x (c.rank v)) new (v :: seen) where
  inv := h.inv.lower x (c.rank v)
  ext := h.ext.lower h.not_found (c.rank v)
  index_self := h.index_self
  seen_found := List.forall_mem_cons.2 ⟨h.inv.found v hstack, h.seen_found⟩
  low_new u hu w hw hmem := by
    rw [lowLink_lower_self]
    exact Nat.le_trans (Nat.min_le_left _ _) (h.low_new u hu w hw hmem)
  low_seen u hu hmem := by
    rw [lowLink_lower_self]
    rcases List.mem_cons.1 hu with rfl | hu
    · rw [h.ext.rank_eq (hbase.found u hmem)]
      exact Nat.min_le_right _ _
    · exact Nat.le_trans (Nat.min_le_left _ _) (h.low_seen u hu hmem)
  low_spec := by
    rw [lowLink_lower_self]
    by_cases hle : c.lowLink x ≤ c.rank v
    · rw [Nat.min_eq_left hle]
      exact h.low_spec
    · -- The number is less than that of the visit, so the message stands below it.
      have hlt : c.rank v < c.lowLink x := Nat.lt_of_not_le hle
      have hmem := h.mem_base hstack (Nat.lt_of_lt_of_le hlt (h.lowLink_le hbase))
      rw [Nat.min_eq_right (Nat.le_of_lt hlt)]
      exact .inr ⟨v, hmem, (h.ext.rank_eq (hbase.found v hmem)).symm, .of_mem hv⟩

/-- A field to a message that was not found leads back to what the visit of that message
    leads back to. -/
theorem follow_new {c' : Components} (hbase : Inv g path base) (h : Scan g path x base c new seen)
    (hv : v ∈ g.targets x) (hfresh : ¬c.Found v) (hvisit : Visited g (x :: path) v c c' new') :
    Scan g path x base (c'.lower x (c'.lowLink v)) (new' ++ new) (v :: seen) := by
  have hext : Extends base c' (new' ++ new ++ [x]) := by
    rw [List.append_assoc]
    exact h.ext.trans hvisit.ext
  have hlow : c'.lowLink x = c.lowLink x := hvisit.ext.lowLink x h.found_self
  have hmin : (c'.lower x (c'.lowLink v)).lowLink x = min (c.lowLink x) (c'.lowLink v) := by
    rw [lowLink_lower_self, hlow]
  constructor
  case inv => exact hvisit.inv.lower x _
  case ext => exact hext.lower h.not_found _
  case index_self => exact (hvisit.ext.index x h.found_self).trans h.index_self
  case seen_found =>
    exact List.forall_mem_cons.2 ⟨hvisit.found, fun u hu => hvisit.ext.found (h.seen_found u hu)⟩
  case low_new =>
    intro u hu w hw hmem
    rw [hmin]
    rcases List.mem_append.1 hu with hu | hu
    · -- The stack that the deeper visit started with holds the one that this visit did.
      have hstack : w ∈ c.stack := by
        rw [h.ext.stack]
        exact List.mem_append_right _ hmem
      rw [← h.ext.rank_eq (hbase.found w hmem)]
      exact Nat.le_trans (Nat.min_le_right _ _) (hvisit.low_new u hu w hw hstack)
    · exact Nat.le_trans (Nat.min_le_left _ _) (h.low_new u hu w hw hmem)
  case low_seen =>
    intro u hu hmem
    rw [hmin]
    rcases List.mem_cons.1 hu with rfl | hu
    · -- The message of the field is new, so it is none of those below.
      exact absurd (h.ext.found (hbase.found u hmem)) hfresh
    · exact Nat.le_trans (Nat.min_le_left _ _) (h.low_seen u hu hmem)
  case low_spec =>
    rw [hmin]
    by_cases hle : c.lowLink x ≤ c'.lowLink v
    · rw [Nat.min_eq_left hle]
      exact h.low_spec
    · have hlt : c'.lowLink v < base.nextIndex :=
        Nat.lt_of_lt_of_le (Nat.lt_of_not_le hle) (h.lowLink_le hbase)
      rw [Nat.min_eq_right (Nat.le_of_not_le hle)]
      rcases hvisit.low_spec with hself | ⟨w, hw, heq, hleads⟩
      · -- A number that the visit itself gave is greater than that of the owner.
        exact absurd (Nat.lt_of_lt_of_le hlt (Nat.le_trans h.ext.nextIndex hself)) (Nat.lt_irrefl _)
      · have hmem := h.mem_base hw (heq ▸ hlt)
        refine .inr ⟨w, hmem, ?_, (MessageGraph.Leads.of_mem hv).trans hleads⟩
        rw [← heq, h.ext.rank_eq (hbase.found w hmem)]

end Scan

end Components

end Protobuf
