/-
Trails: the nodes that a control-flow walk meets.

A trail pushes every successor of a node, also one that was seen, and it records
nodes of all kinds.  The walk behind the task order is a trail without the nodes
that are no tasks.  A trail meets exactly the nodes to which control flow leads
from its stack, each of them once, and behind an earlier node or from the stack.
-/

import CrewCanvas.Graph.Sequence

namespace CrewCanvas.Graph

variable {graph : Graph}

def trail (graph : Graph) (seen : List NodeId) : List NodeId → List NodeId
  | [] => []
  | id :: stack =>
      if _known : id ∈ seen then trail graph seen stack
      else
        match _found : graph.node? id with
        | none => trail graph seen stack
        | some node => id :: trail graph (id :: seen) (graph.successors node ++ stack)
termination_by stack => (graph.unseen seen, stack.length)
decreasing_by
  · exact Prod.Lex.right _ (Nat.lt_succ_self _)
  · exact Prod.Lex.right _ (Nat.lt_succ_self _)
  · exact Prod.Lex.left _ _ (unseen_cons_lt _found _known)

theorem trail_seen {seen stack : List NodeId} {id : NodeId} (known : id ∈ seen) :
    graph.trail seen (id :: stack) = graph.trail seen stack := by
  rw [trail, dif_pos known]

theorem trail_append_seen {seen front back : List NodeId} (known : ∀ id ∈ front, id ∈ seen) :
    graph.trail seen (front ++ back) = graph.trail seen back := by
  induction front with
  | nil => rfl
  | cons id front ih =>
      rw [List.cons_append, trail_seen (known id List.mem_cons_self)]
      exact ih (fun other member => known other (List.mem_cons_of_mem id member))

theorem trail_absent {seen stack : List NodeId} {id : NodeId} (absent : graph.node? id = none) :
    graph.trail seen (id :: stack) = graph.trail seen stack := by
  rw [trail]
  split
  · rfl
  · split
    · rfl
    · rename_i node found
      rw [absent] at found
      cases found

theorem trail_fresh {seen stack : List NodeId} {id : NodeId} {node : Node}
    (fresh : id ∉ seen) (found : graph.node? id = some node) :
    graph.trail seen (id :: stack) =
      id :: graph.trail (id :: seen) (graph.successors node ++ stack) := by
  rw [trail, dif_neg fresh]
  split
  · rename_i absent
    rw [found] at absent
    cases absent
  · rename_i other same
    rw [found] at same
    cases same
    rfl

/-! ### The walk as a trail -/

/-- A stack without some of the ids that a walk has seen. -/
inductive Thinned (seen : List NodeId) : List NodeId → List NodeId → Prop
  | nil : Thinned seen [] []
  | keep (id : NodeId) {short long : List NodeId} :
      Thinned seen short long → Thinned seen (id :: short) (id :: long)
  | drop {id : NodeId} {short long : List NodeId} :
      id ∈ seen → Thinned seen short long → Thinned seen short (id :: long)

namespace Thinned

theorem refl (seen : List NodeId) : (stack : List NodeId) → Thinned seen stack stack
  | [] => nil
  | id :: stack => keep id (refl seen stack)

theorem grow {seen short long : List NodeId} (id : NodeId) (thinned : Thinned seen short long) :
    Thinned (id :: seen) short long := by
  induction thinned with
  | nil => exact nil
  | keep other _ ih => exact keep other ih
  | drop known _ ih => exact drop (List.mem_cons_of_mem id known) ih

/-- Pushing only the fresh ids thins a stack. -/
theorem push {seen short long : List NodeId} (ids : List NodeId)
    (thinned : Thinned seen short long) :
    Thinned seen (ids.filter (fun id => id ∉ seen) ++ short) (ids ++ long) := by
  induction ids with
  | nil => exact thinned
  | cons id ids ih =>
      by_cases known : id ∈ seen
      · rw [List.filter_cons_of_neg (by simpa using known)]
        exact drop known ih
      · rw [List.filter_cons_of_pos (by simpa using known)]
        exact keep id ih

end Thinned

def isTask (graph : Graph) (id : NodeId) : Bool :=
  (graph.node? id).any (fun node => node.kind = .task)

theorem isTask_iff {id : NodeId} {node : Node} (found : graph.node? id = some node) :
    graph.isTask id = true ↔ node.kind = .task := by
  simp [isTask, found]

theorem walk_eq_of_thinned {seen short long : List NodeId} (thinned : Thinned seen short long) :
    graph.walk seen short = (graph.trail seen long).filter graph.isTask := by
  fun_induction graph.trail seen long generalizing short with
  | case1 seen =>
      cases thinned
      rw [walk, List.filter_nil]
  | case2 seen id stack known ih =>
      cases thinned with
      | keep _ rest =>
          rw [walk, dif_pos known]
          exact ih rest
      | drop _ rest => exact ih rest
  | case3 seen id stack fresh absent ih =>
      cases thinned with
      | keep _ rest =>
          rw [walk, dif_neg fresh]
          split
          · exact ih rest
          · rename_i node found
            rw [absent] at found
            cases found
      | drop known _ => exact absurd known fresh
  | case4 seen id stack fresh node found ih =>
      cases thinned with
      | drop known _ => exact absurd known fresh
      | @keep _ short _ rest =>
          have later := ih ((rest.grow id).push (graph.successors node))
          rw [walk, dif_neg fresh]
          split
          · rename_i absent
            rw [found] at absent
            cases absent
          · rename_i other same
            rw [found] at same
            cases same
            by_cases task : node.kind = .task
            · rw [List.filter_cons_of_pos ((isTask_iff found).mpr task), ← later]
              exact if_pos task
            · rw [List.filter_cons_of_neg (fun held => task ((isTask_iff found).mp held)), ← later]
              exact if_neg task

/-- The walk behind the task order meets the tasks of the trail. -/
theorem walk_eq_trail (graph : Graph) (seen stack : List NodeId) :
    graph.walk seen stack = (graph.trail seen stack).filter graph.isTask :=
  walk_eq_of_thinned (Thinned.refl seen stack)

/-! ### What a trail meets -/

/-- Control flow leads from an id to an id along nodes outside a list. -/
inductive Leads (graph : Graph) (avoided : List NodeId) : NodeId → NodeId → Prop
  | here {id : NodeId} {node : Node} :
      id ∉ avoided → graph.node? id = some node → Leads graph avoided id id
  | onward {id next last : NodeId} {node : Node} :
      id ∉ avoided → graph.node? id = some node → next ∈ graph.successors node →
        Leads graph avoided next last → Leads graph avoided id last

namespace Leads

theorem last_fresh {avoided : List NodeId} {first last : NodeId}
    (leads : Leads graph avoided first last) : last ∉ avoided := by
  induction leads with
  | here fresh _ => exact fresh
  | onward _ _ _ _ ih => exact ih

theorem shrink {avoided : List NodeId} {id first last : NodeId}
    (leads : Leads graph (id :: avoided) first last) : Leads graph avoided first last := by
  induction leads with
  | here fresh found => exact here (fun known => fresh (List.mem_cons_of_mem id known)) found
  | onward fresh found member _ ih =>
      exact onward (fun known => fresh (List.mem_cons_of_mem id known)) found member ih

/-- A node can also be avoided, unless control flow ends at it or goes on behind it. -/
theorem avoid {avoided : List NodeId} {id first last : NodeId} {node : Node}
    (found : graph.node? id = some node) (leads : Leads graph avoided first last) :
    Leads graph (id :: avoided) first last ∨ last = id ∨
      ∃ next ∈ graph.successors node, Leads graph (id :: avoided) next last := by
  induction leads with
  | @here other _ fresh present =>
      by_cases same : other = id
      · exact Or.inr (Or.inl same)
      · exact Or.inl (here (by simp [same, fresh]) present)
  | @onward other next _ _ fresh present member _ ih =>
      rcases ih with clear | rest
      · by_cases same : other = id
        · subst other
          rw [found] at present
          cases present
          exact Or.inr (Or.inr ⟨next, member, clear⟩)
        · exact Or.inl (onward (by simp [same, fresh]) present member clear)
      · exact Or.inr rest

end Leads

theorem mem_trail_iff {seen stack : List NodeId} {last : NodeId} :
    last ∈ graph.trail seen stack ↔ ∃ first ∈ stack, Leads graph seen first last := by
  fun_induction graph.trail seen stack with
  | case1 seen => simp
  | case2 seen id stack known ih =>
      rw [ih]
      constructor
      · rintro ⟨first, member, leads⟩
        exact ⟨first, List.mem_cons_of_mem id member, leads⟩
      · rintro ⟨first, member, leads⟩
        rcases List.mem_cons.mp member with same | later
        · subst first
          cases leads with
          | here fresh _ => exact absurd known fresh
          | onward fresh _ _ _ => exact absurd known fresh
        · exact ⟨first, later, leads⟩
  | case3 seen id stack fresh absent ih =>
      rw [ih]
      constructor
      · rintro ⟨first, member, leads⟩
        exact ⟨first, List.mem_cons_of_mem id member, leads⟩
      · rintro ⟨first, member, leads⟩
        rcases List.mem_cons.mp member with same | later
        · subst first
          cases leads with
          | here _ found => rw [absent] at found; cases found
          | onward _ found _ _ => rw [absent] at found; cases found
        · exact ⟨first, later, leads⟩
  | case4 seen id stack fresh node found ih =>
      rw [List.mem_cons, ih]
      constructor
      · rintro (same | ⟨first, member, leads⟩)
        · subst last
          exact ⟨id, List.mem_cons_self, Leads.here fresh found⟩
        · rcases List.mem_append.mp member with next | later
          · exact ⟨id, List.mem_cons_self, Leads.onward fresh found next leads.shrink⟩
          · exact ⟨first, List.mem_cons_of_mem id later, leads.shrink⟩
      · rintro ⟨first, member, leads⟩
        -- the part of the way behind its last visit of `id` avoids `id` too
        rcases leads.avoid found with clear | same | ⟨next, reached, clear⟩
        · rcases List.mem_cons.mp member with same | later
          · subst first
            cases clear with
            | here avoided _ => exact absurd List.mem_cons_self avoided
            | onward avoided _ _ _ => exact absurd List.mem_cons_self avoided
          · exact Or.inr ⟨first, List.mem_append_right _ later, clear⟩
        · exact Or.inl same
        · exact Or.inr ⟨next, List.mem_append_left _ reached, clear⟩

theorem not_mem_trail_of_seen {seen stack : List NodeId} {id : NodeId} (known : id ∈ seen) :
    id ∉ graph.trail seen stack := by
  intro member
  obtain ⟨first, _, leads⟩ := mem_trail_iff.mp member
  exact leads.last_fresh known

theorem trail_nodup (graph : Graph) (seen stack : List NodeId) :
    (graph.trail seen stack).Nodup := by
  fun_induction graph.trail seen stack with
  | case1 seen => exact List.nodup_nil
  | case2 seen id stack known ih => exact ih
  | case3 seen id stack fresh absent ih => exact ih
  | case4 seen id stack fresh node found ih =>
      exact List.nodup_cons.mpr ⟨not_mem_trail_of_seen List.mem_cons_self, ih⟩

/-- Every node of a trail was on the stack or is entered from an earlier one. -/
theorem trail_cause {seen stack earlier later : List NodeId} {id : NodeId}
    (parts : graph.trail seen stack = earlier ++ id :: later) :
    id ∈ stack ∨ ∃ cause ∈ earlier, ∃ node, graph.node? cause = some node ∧
      id ∈ graph.successors node := by
  fun_induction graph.trail seen stack generalizing earlier with
  | case1 seen => simp at parts
  | case2 seen top stack known ih =>
      rcases ih parts with member | behind
      · exact Or.inl (List.mem_cons_of_mem top member)
      · exact Or.inr behind
  | case3 seen top stack fresh absent ih =>
      rcases ih parts with member | behind
      · exact Or.inl (List.mem_cons_of_mem top member)
      · exact Or.inr behind
  | case4 seen top stack fresh node found ih =>
      cases earlier with
      | nil =>
          rw [List.nil_append, List.cons.injEq] at parts
          exact Or.inl (List.mem_cons.mpr (Or.inl parts.1.symm))
      | cons first earlier =>
          rw [List.cons_append, List.cons.injEq] at parts
          obtain ⟨same, rest⟩ := parts
          subst first
          rcases ih rest with member | ⟨cause, before, entered⟩
          · rcases List.mem_append.mp member with next | pending
            · exact Or.inr ⟨top, List.mem_cons_self, node, found, next⟩
            · exact Or.inl (List.mem_cons_of_mem top pending)
          · exact Or.inr ⟨cause, List.mem_cons_of_mem top before, entered⟩

end CrewCanvas.Graph
