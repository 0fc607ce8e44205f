import Mathlib.Data.List.Perm.Subperm
import Protobuf.Proofs.Names.Leaving

/-! # The whole walk

Two messages are in one component exactly if each leads to the other.

* `MessageGraph.length_path_lt`: no way is longer than there are messages.
* `Components.Scan.follow`, `Components.Scan.foldl`: all fields of one message.
* `MessageGraph.visit_spec`: the visit of one message, at any depth.
* `MessageGraph.component_eq_iff`: the components.
-/

namespace Protobuf

variable {g : MessageGraph} {path : List Nat} {base c : Components} {x : Nat}

/-- The messages on the way to one that was not found are fewer than there are messages. -/
theorem MessageGraph.length_path_lt (h : Components.Inv g path base) (hx : ¬base.Found x)
    (hlength : x < g.length) : path.length < g.length := by
  have hnew : x ∉ path := fun hmem => hx (h.found x (h.path_mem x hmem))
  -- The way and the message behind it are positions in the graph, each there once.
  have hnodup : (x :: path).Nodup := List.nodup_cons.2 ⟨hnew, h.path_nodup⟩
  have hsubset : x :: path ⊆ List.range g.length := by
    intro u hu
    rw [List.mem_range]
    rcases List.mem_cons.1 hu with rfl | hu
    · exact hlength
    · exact h.lt_length u (h.found u (h.path_mem u hu))
  have hle := (hnodup.subperm hsubset).length_le
  rwa [List.length_range] at hle

/-! ## The fields of one message -/

namespace Components

def Visits (g : MessageGraph) (path : List Nat) (visit : Nat → Components → Components) : Prop :=
  ∀ {c x}, Inv g path c → ¬c.Found x → x < g.length → (∀ p ∈ path, g.Leads p x) →
    ∃ new, Visited g path x c (visit x c) new

namespace Scan

variable {visit : Nat → Components → Components} {new seen : List Nat}

/-- One field, be the message that it refers to new, open or done. -/
theorem follow (hbase : Inv g path base) (hpath : ∀ p ∈ path, g.Leads p x)
    (hvisit : Visits g (x :: path) visit) (h : Scan g path x base c new seen) {v : Nat}
    (hv : v ∈ g.targets x) :
    ∃ new', Scan g path x base (Components.follow visit x c v) new' (v :: seen) := by
  unfold Components.follow
  cases hindex : c.index v with
  | none =>
    have hfresh := Components.not_found hindex
    have hway : ∀ p ∈ x :: path, g.Leads p v := by
      intro p hp
      rcases List.mem_cons.1 hp with rfl | hp
      · exact .of_mem hv
      · exact (hpath p hp).trans (.of_mem hv)
    obtain ⟨new', hvisited⟩ := hvisit h.inv hfresh (MessageGraph.lt_of_mem_targets hv) hway
    exact ⟨_, h.follow_new hbase hv hfresh hvisited⟩
  | some index =>
    have hfound : c.Found v := by
      rw [Found, hindex]
      rfl
    have hrank : c.rank v = index := by rw [rank, hindex, Option.getD_some]
    by_cases hopen : c.onStack v = true
    · refine ⟨new, ?_⟩
      simp only [if_pos hopen]
      exact hrank ▸ h.follow_open hbase hv ((h.inv.onStack v).1 hopen)
    · refine ⟨new, ?_⟩
      simp only [if_neg hopen]
      exact h.follow_done hfound fun hmem => hopen ((h.inv.onStack v).2 hmem)

theorem foldl (hbase : Inv g path base) (hpath : ∀ p ∈ path, g.Leads p x)
    (hvisit : Visits g (x :: path) visit) (h : Scan g path x base c new seen) {vs : List Nat}
    (hvs : ∀ v ∈ vs, v ∈ g.targets x) :
    ∃ new', Scan g path x base (vs.foldl (Components.follow visit x) c) new' (vs.reverse ++ seen) := by
  -- The state and what the visit found grow with every field.
  induction vs generalizing c new seen with
  | nil => exact ⟨new, h⟩
  | cons v rest ih =>
    obtain ⟨new', hnext⟩ := h.follow hbase hpath hvisit (hvs v List.mem_cons_self)
    obtain ⟨new'', hrest⟩ := ih hnext fun u hu => hvs u (List.mem_cons_of_mem _ hu)
    refine ⟨new'', ?_⟩
    rw [List.reverse_cons, List.append_assoc]
    exact hrest

end Scan

end Components

namespace MessageGraph

/-- A visit that may go as deep as there are messages that are not on the way. -/
theorem visit_spec {levels : Nat} (hlevels : g.length ≤ levels + path.length) :
    Components.Visits g path (g.visit levels) := by
  induction levels generalizing path with
  | zero =>
    intro c x h hx hlength _
    -- With no level left, all messages would be on the way, and this one is not.
    have hlt := length_path_lt h hx hlength
    omega
  | succ levels ih =>
    intro c x h hx hlength hpath
    -- One level less, and one message more on the way.
    have hdeeper : Components.Visits g (x :: path) (g.visit levels) := by
      apply ih
      rw [List.length_cons]
      omega
    have hfields : ∀ v ∈ g.targets x, v ∈ g.targets x := fun v hv => hv
    obtain ⟨new, hscan⟩ := (Components.scan_enter h hx hlength hpath).foldl h hpath hdeeper hfields
    exact hscan.leave h fun v hv => List.mem_append_left _ (List.mem_reverse.2 hv)

/-! ## All messages -/

theorem visitNew_spec (h : Components.Inv g [] c) (hlength : x < g.length) :
    Components.Inv g [] (g.visitNew c x) ∧ (g.visitNew c x).Found x ∧
      ∀ u, c.Found u → (g.visitNew c x).Found u := by
  unfold visitNew
  cases hindex : c.index x with
  | none =>
    obtain ⟨new, hvisited⟩ := @visit_spec g [] g.length (Nat.le_refl _) c x h
      (Components.not_found hindex) hlength fun p hp => by cases hp
    exact ⟨hvisited.inv, hvisited.found, fun u hu => hvisited.ext.found hu⟩
  | some index =>
    have hfound : c.Found x := by
      rw [Components.Found, hindex]
      rfl
    exact ⟨h, hfound, fun u hu => hu⟩

theorem inv_empty (g : MessageGraph) : Components.Inv g [] {} where
  lt_length _ hu := by cases hu
  rank_lt _ hu := by cases hu
  found _ hu := by cases hu
  sorted := List.Pairwise.nil
  onStack _ := by simp
  path_nodup := List.nodup_nil
  path_mem _ hp := by cases hp
  followed _ hu := by cases hu
  closed _ hu := by cases hu.1
  descends _ hu := by cases hu
  ascends _ hv := by cases hv
  component_lt _ hu := by cases hu.1
  component_iff _ _ hu := by cases hu.1

theorem foldl_visitNew {nodes : List Nat} (h : Components.Inv g [] c)
    (hnodes : ∀ x ∈ nodes, x < g.length) :
    Components.Inv g [] (nodes.foldl g.visitNew c) ∧
      (∀ u, c.Found u → (nodes.foldl g.visitNew c).Found u) ∧
      ∀ x ∈ nodes, (nodes.foldl g.visitNew c).Found x := by
  induction nodes generalizing c with
  | nil => exact ⟨h, fun u hu => hu, fun x hx => by cases hx⟩
  | cons x rest ih =>
    obtain ⟨hinv, hself, hkept⟩ := visitNew_spec h (hnodes x List.mem_cons_self)
    obtain ⟨hinv', hkept', hrest⟩ := ih hinv fun y hy => hnodes y (List.mem_cons_of_mem _ hy)
    refine ⟨hinv', fun u hu => hkept' u (hkept u hu), ?_⟩
    intro y hy
    rcases List.mem_cons.1 hy with rfl | hy
    · exact hkept' y hself
    · exact hrest y hy

theorem done_components {u : Nat} (hu : u < g.length) :
    Components.Inv g [] g.components ∧ g.components.Done u := by
  have hnodes : ∀ x ∈ List.range g.length, x < g.length := fun x hx => List.mem_range.1 hx
  obtain ⟨hinv, _, hfound⟩ := foldl_visitNew (inv_empty g) hnodes
  refine ⟨hinv, hfound u (List.mem_range.2 hu), ?_⟩
  intro hmem
  -- No message is being visited any more, so nothing is left on the stack.
  obtain ⟨p, hp, _⟩ := hinv.ascends u hmem
  cases hp

/-- Two messages are in one component exactly if each leads to the other. -/
theorem component_eq_iff {u v : Nat} (hu : u < g.length) (hv : v < g.length) :
    g.components.component u = g.components.component v ↔ g.Leads u v ∧ g.Leads v u := by
  obtain ⟨hinv, hudone⟩ := done_components hu
  exact hinv.component_iff u v hudone (done_components hv).2

end MessageGraph

end Protobuf
