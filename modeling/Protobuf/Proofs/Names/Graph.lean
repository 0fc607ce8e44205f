import Mathlib.Data.List.Nodup
import Mathlib.Logic.Relation
import Protobuf.Names.Boxing

/-! # The graph of messages

Positions and names of the messages of a graph, and what a message leads to.

* `MessageGraph.Leads`: what a message leads to in no step or more.
* `MessageGraph.getElem?_of_index?`, `MessageGraph.index?_of_getElem?`: names and positions.
* `MessageGraph.lt_of_mem_targets`: a field refers to a message of the graph.
-/

namespace Protobuf.MessageGraph

variable {g : MessageGraph} {name : String} {i u v w : Nat}

theorem getElem?_of_index? (h : g.index? name = some i) : ∃ n, g[i]? = some n ∧ n.name = name := by
  induction g generalizing i with
  | nil => cases h
  | cons n rest ih =>
    rw [index?] at h
    cases hrest : index? rest name with
    | some j =>
      rw [hrest] at h
      cases h
      exact ih hrest
    | none =>
      rw [hrest] at h
      by_cases hname : n.name = name
      · simp only [if_pos hname] at h
        cases h
        exact ⟨n, rfl, hname⟩
      · simp only [if_neg hname] at h
        cases h

theorem index?_eq_none (h : name ∉ g.map (·.name)) : g.index? name = none := by
  induction g with
  | nil => rfl
  | cons n rest ih =>
    rw [List.map_cons, List.mem_cons, not_or] at h
    rw [index?, ih h.2]
    exact if_neg (Ne.symm h.1)

/-- A name of its own is found where it stands. -/
theorem index?_of_getElem? (distinct : (g.map (·.name)).Nodup) {n : MessageNode}
    (h : g[i]? = some n) : g.index? n.name = some i := by
  induction g generalizing i with
  | nil => cases h
  | cons m rest ih =>
    rw [List.map_cons, List.nodup_cons] at distinct
    cases i with
    | zero =>
      cases h
      rw [index?, index?_eq_none distinct.1]
      exact if_pos rfl
    | succ i => rw [index?, ih distinct.2 h]

/-! ## What a message leads to -/

/-- A message leads to another through no field or more. -/
def Leads (g : MessageGraph) : Nat → Nat → Prop := Relation.ReflTransGen fun u v => v ∈ g.targets u

theorem Leads.refl : g.Leads u u := Relation.ReflTransGen.refl

theorem Leads.trans (huv : g.Leads u v) (hvw : g.Leads v w) : g.Leads u w :=
  Relation.ReflTransGen.trans huv hvw

theorem Leads.of_mem (h : v ∈ g.targets u) : g.Leads u v := Relation.ReflTransGen.single h

theorem Leads.closed {P : Nat → Prop} (h : g.Leads u v) (hu : P u)
    (closed : ∀ a, P a → ∀ b ∈ g.targets a, P b) : P v := by
  induction h with
  | refl => exact hu
  | tail _ hmem ih => exact closed _ ih _ hmem

theorem mem_targets : v ∈ g.targets u ↔
    ∃ n, g[u]? = some n ∧ ∃ edge ∈ n.inline, g.index? edge.2 = some v := by
  unfold targets
  cases hu : g[u]? with
  | none => simp
  | some n => simp

theorem lt_of_mem_targets (h : v ∈ g.targets u) : v < g.length := by
  obtain ⟨_, _, edge, _, hindex⟩ := mem_targets.1 h
  obtain ⟨m, hm, _⟩ := getElem?_of_index? hindex
  exact (List.getElem?_eq_some_iff.1 hm).1

end Protobuf.MessageGraph
