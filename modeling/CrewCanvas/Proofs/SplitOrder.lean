/-
A split edge and the order of the tasks.

The walk of the split graph goes through the new reroute where the walk of the
original goes along the edge.  Without the reroute its trail is the original trail,
so the task order stays.
-/

import CrewCanvas.Proofs.Subdivision
import CrewCanvas.Proofs.TaskOrder
import Mathlib.Data.List.Basic

namespace CrewCanvas

/-! ### The claim that a split makes -/

def Graph.TaskOutputsNamed (graph : Graph) : Prop :=
  ∀ edge ∈ graph.edges, ∀ source, graph.node? edge.source = some source → source.kind = .task →
    edge.sourceHandle = some .execOut ∨ edge.sourceHandle = some .agentOut

instance (graph : Graph) : Decidable graph.TaskOutputsNamed :=
  inferInstanceAs (Decidable (∀ edge ∈ graph.edges, ∀ source ∈ graph.node? edge.source,
    source.kind = .task → _ ∨ _))

theorem Graph.splitClaim_execution {edge : Edge} {source : Node} (noAgent : source.kind ≠ .agent)
    (claimed : source.kind = .reroute → source.claimed? = some .execution)
    (carries : edge.carries source .execution = true)
    (named : source.kind = .task →
      edge.sourceHandle = some .execOut ∨ edge.sourceHandle = some .agentOut) :
    splitClaim source edge.sourceHandle = some .execution := by
  cases kind : source.kind with
  | begin => simp [splitClaim, Node.feeds, kind]
  | agent => exact absurd kind noAgent
  | task =>
      rcases named kind with out | out
      · simp [splitClaim, Node.feeds, kind, out]
      · exact absurd out (Edge.carries_iff.mp carries kind)
  | reroute => rw [splitClaim_reroute kind, claimed kind]

def Edge.admitted (edge : Edge) (target : Node) : Bool :=
  match target.kind with
  | .task => edge.targetHandle == some .execIn
  | .reroute => target.claimed? == some .execution
  | _ => false

theorem Edge.leadsOn_eq (edge : Edge) (source target : Node) :
    edge.leadsOn source target =
      (source.kind != .agent && edge.carries source .execution && edge.admitted target) :=
  rfl

namespace Graph

def successorsAlong (graph : Graph) (source : Node) (edges : List Edge) : List NodeId :=
  (edges.filter (fun edge => edge.source = source.id)).filterMap
    (fun edge => (graph.entered? source edge).map Node.id)

theorem successors_eq (graph : Graph) (source : Node) :
    graph.successors source = graph.successorsAlong source graph.edges :=
  rfl

theorem successorsAlong_append (graph : Graph) (source : Node) (front back : List Edge) :
    graph.successorsAlong source (front ++ back) =
      graph.successorsAlong source front ++ graph.successorsAlong source back := by
  unfold successorsAlong
  rw [List.filter_append, List.filterMap_append]

theorem successorsAlong_cons (graph : Graph) (source : Node) (edge : Edge) (edges : List Edge) :
    graph.successorsAlong source (edge :: edges) =
      graph.successorsAlong source [edge] ++ graph.successorsAlong source edges :=
  graph.successorsAlong_append source [edge] edges

theorem successorsAlong_other {graph : Graph} {source : Node} {edge : Edge}
    (other : edge.source ≠ source.id) : graph.successorsAlong source [edge] = [] := by
  simp [successorsAlong, other]

theorem successorsAlong_own {graph : Graph} {source : Node} {edge : Edge}
    (own : edge.source = source.id) :
    graph.successorsAlong source [edge] = ((graph.entered? source edge).map Node.id).toList := by
  cases entered : graph.entered? source edge <;> simp [successorsAlong, own, entered]

namespace Subdivision

variable {graph next : Graph} {given : Node}

/-- Where control flow goes on from the new reroute: to the end of the split edge, if it
may enter there. -/
def exits (parts : Subdivision graph next given) : List NodeId :=
  (((graph.node? parts.edge.target).filter (fun target => parts.edge.admitted target)).map
    Node.id).toList

/-- The ids that stand in the original for an id of the split graph. -/
def merged (parts : Subdivision graph next given) (id : NodeId) : List NodeId :=
  if id = parts.reroute.id then parts.exits else [id]

theorem eq_of_mem_exits {parts : Subdivision graph next given} {id : NodeId}
    (member : id ∈ parts.exits) :
    ∃ target, graph.node? parts.edge.target = some target ∧ parts.edge.admitted target = true ∧
      target.id = id ∧ parts.exits = [id] := by
  cases found : graph.node? parts.edge.target with
  | none => simp [exits, found] at member
  | some target =>
      cases admitted : parts.edge.admitted target with
      | false =>
          rw [exits, found, Option.filter_some_neg admitted] at member
          cases member
      | true =>
          have exit : parts.exits = [target.id] := by
            rw [exits, found, Option.filter_some_pos admitted]
            rfl
          rw [exit, List.mem_singleton] at member
          exact ⟨target, rfl, admitted, member.symm, by rw [exit, member]⟩

theorem flatMap_merged {parts : Subdivision graph next given} {ids : List NodeId}
    (others : ∀ id ∈ ids, id ≠ parts.reroute.id) : ids.flatMap parts.merged = ids := by
  induction ids with
  | nil => rfl
  | cons id ids ih =>
      have other := others id List.mem_cons_self
      have later := fun id member => others id (List.mem_cons_of_mem _ member)
      rw [List.flatMap_cons, ih later, merged, if_neg other, List.singleton_append]

theorem ne_of_mem_exits {parts : Subdivision graph next given} {id : NodeId}
    (member : id ∈ parts.exits) : id ≠ parts.reroute.id := by
  obtain ⟨target, found, _, same, _⟩ := eq_of_mem_exits member
  rw [← same]
  exact parts.ne_of_node? (node?_id found)

/-! ### Successors in the split graph -/

theorem successorsAlong_kept (parts : Subdivision graph next given) (ends : graph.EndsPresent)
    (source : Node) {edges : List Edge} (old : ∀ edge ∈ edges, edge ∈ graph.edges) :
    (next.successorsAlong source edges).flatMap parts.merged =
      graph.successorsAlong source edges := by
  have entered : ∀ edge ∈ edges, next.entered? source edge = graph.entered? source edge := by
    intro edge member
    unfold entered?
    rw [parts.node?_of_ne (parts.ne_of_mem_nodeIds (ends edge (old edge member)).2)]
  have same : next.successorsAlong source edges = graph.successorsAlong source edges := by
    apply List.filterMap_congr
    intro edge member
    rw [entered edge (List.mem_filter.mp member).1]
  rw [same, flatMap_merged]
  intro id member
  obtain ⟨edge, kept, result⟩ := List.mem_filterMap.mp member
  obtain ⟨target, found, same⟩ := Option.map_eq_some_iff.mp result
  rw [← same]
  exact parts.ne_of_node? (node?_id (Option.filter_eq_some_iff.mp found).1)

theorem entered?_head (parts : Subdivision graph next given) (source : Node) :
    next.entered? source (parts.edge.head parts.reroute.id) =
      if (parts.edge.head parts.reroute.id).leadsOn source parts.reroute then some parts.reroute
      else none := by
  change (next.node? parts.reroute.id).filter _ = _
  rw [parts.node?_reroute, Option.filter_some]

theorem successorsAlong_head (parts : Subdivision graph next given)
    (named : graph.TaskOutputsNamed) {source : Node}
    (claimed : source.kind = .reroute → source.claimed? = some .execution)
    (unclaimed : given.claimed? = none) (own : parts.edge.source = source.id)
    (found : graph.node? source.id = some source) :
    (next.successorsAlong source [parts.edge.head parts.reroute.id]).flatMap parts.merged =
      graph.successorsAlong source [parts.edge] := by
  have same : parts.source = source := by
    have leaves := parts.leaves
    rw [own, found] at leaves
    exact (Option.some.inj leaves).symm
  have ownHead : (parts.edge.head parts.reroute.id).source = source.id := own
  rw [successorsAlong_own own, successorsAlong_own ownHead, parts.entered?_head, Edge.leadsOn_eq]
  unfold entered?
  cases gives : source.kind != .agent && parts.edge.carries source .execution with
  | false =>
      have stays : (source.kind != .agent &&
          (parts.edge.head parts.reroute.id).carries source .execution) = false := gives
      have blocked : (graph.node? parts.edge.target).filter
          (fun target => parts.edge.leadsOn source target) = none := by
        cases graph.node? parts.edge.target <;> simp [Edge.leadsOn_eq, gives]
      rw [stays, blocked]
      rfl
  | true =>
      have goes : (source.kind != .agent &&
          (parts.edge.head parts.reroute.id).carries source .execution) = true := gives
      obtain ⟨noAgent, carries⟩ := Bool.and_eq_true_iff.mp gives
      have forControl : parts.reroute.claimed? = some .execution := by
        rw [parts.claimed, unclaimed, same, Option.none_or]
        refine splitClaim_execution (by simpa using noAgent) claimed carries ?_
        exact named parts.edge parts.edge_mem source (own ▸ found)
      have admitted : (parts.edge.head parts.reroute.id).admitted parts.reroute = true := by
        simp [Edge.admitted, parts.kind, forControl]
      rw [goes, admitted]
      simp [merged, exits, Edge.leadsOn_eq, gives]

theorem successors_parts (parts : Subdivision graph next given) (source : Node) :
    graph.successors source = graph.successorsAlong source parts.front ++
      (graph.successorsAlong source [parts.edge] ++ graph.successorsAlong source parts.back) := by
  rw [successors_eq, parts.edges_eq, successorsAlong_append,
    successorsAlong_cons _ _ parts.edge parts.back]

theorem nextSuccessors_parts (parts : Subdivision graph next given) (source : Node) :
    next.successors source = next.successorsAlong source parts.front ++
      (next.successorsAlong source [parts.edge.head parts.reroute.id] ++
        (next.successorsAlong source [parts.edge.tail parts.reroute.id parts.tailId] ++
          next.successorsAlong source parts.back)) := by
  rw [successors_eq, parts.nextEdges, successorsAlong_append,
    successorsAlong_cons _ _ (parts.edge.head _),
    successorsAlong_cons _ _ (parts.edge.tail _ _) parts.back]

/-- A node gives control on to the same nodes as before the split, once the reroute
stands for the end of the edge. -/
theorem successors_merged (parts : Subdivision graph next given) (ends : graph.EndsPresent)
    (named : graph.TaskOutputsNamed) (unclaimed : given.claimed? = none) {source : Node}
    (claimed : source.kind = .reroute → source.claimed? = some .execution)
    (found : graph.node? source.id = some source) :
    (next.successors source).flatMap parts.merged = graph.successors source := by
  have tail : next.successorsAlong source [parts.edge.tail parts.reroute.id parts.tailId] = [] :=
    successorsAlong_other (Ne.symm (parts.ne_of_node? found))
  have middle : (next.successorsAlong source [parts.edge.head parts.reroute.id]).flatMap
      parts.merged = graph.successorsAlong source [parts.edge] := by
    by_cases own : parts.edge.source = source.id
    · exact parts.successorsAlong_head named claimed unclaimed own found
    · have otherHead : (parts.edge.head parts.reroute.id).source ≠ source.id := own
      rw [successorsAlong_other own, successorsAlong_other otherHead]
      rfl
  rw [parts.successors_parts, parts.nextSuccessors_parts, tail, List.nil_append,
    List.flatMap_append, List.flatMap_append, middle,
    parts.successorsAlong_kept ends source (fun _ => parts.front_mem),
    parts.successorsAlong_kept ends source (fun _ => parts.back_mem)]

theorem successors_reroute (parts : Subdivision graph next given) (ends : graph.EndsPresent) :
    next.successors parts.reroute = parts.exits := by
  have others : ∀ edges : List Edge, (∀ edge ∈ edges, edge ∈ graph.edges) →
      next.successorsAlong parts.reroute edges = [] := by
    intro edges old
    unfold successorsAlong
    rw [List.filter_eq_nil_iff.mpr ?_]
    · rfl
    · intro edge member
      simpa using parts.ne_of_mem_nodeIds (ends edge (old edge member)).1
  have head : next.successorsAlong parts.reroute [parts.edge.head parts.reroute.id] = [] :=
    successorsAlong_other (parts.ne_of_node? parts.leaves)
  have tail : next.successorsAlong parts.reroute [parts.edge.tail parts.reroute.id parts.tailId] =
      parts.exits := by
    rw [successorsAlong_own rfl]
    unfold entered? exits
    have atTarget : next.node? parts.edge.target = graph.node? parts.edge.target :=
      parts.node?_of_ne (parts.ne_of_mem_nodeIds (ends parts.edge parts.edge_mem).2)
    have leads : ∀ target, (parts.edge.tail parts.reroute.id parts.tailId).leadsOn parts.reroute
        target = parts.edge.admitted target := by
      intro target
      rw [Edge.leadsOn_eq]
      simp [Edge.carries, parts.kind, Edge.admitted, Edge.tail]
    simp only [Edge.tail] at leads ⊢
    rw [atTarget]
    simp only [leads]
  rw [parts.nextSuccessors_parts, head, tail, others _ (fun _ => parts.front_mem),
    others _ (fun _ => parts.back_mem), List.append_nil, List.nil_append, List.nil_append]

/-! ### The trail of the split graph -/

def Conducts (graph : Graph) (id : NodeId) : Prop :=
  ∀ node, graph.node? id = some node → node.kind = .reroute → node.claimed? = some .execution

theorem conducts_of_successor {source : Node} {id : NodeId}
    (found : graph.node? source.id = some source) (member : id ∈ graph.successors source) :
    Conducts graph id := by
  intro node same kind
  obtain ⟨edge, target, step, atId⟩ := (mem_successors_iff found).mp member
  have enters := step.found
  rw [atId, same] at enters
  cases enters
  rcases step.admits with ⟨task, _⟩ | ⟨_, claimed⟩
  · rw [kind] at task
    cases task
  · exact claimed

/-- What the walks of both graphs keep while they run side by side.  They have seen the
same nodes but the reroute; once the reroute was seen, the exits behind it were seen
too or come next; and control flow may go on from every node of the stack. -/
structure SideBySide (parts : Subdivision graph next given)
    (seenNext seen stack : List NodeId) : Prop where
  same : ∀ id, id ≠ parts.reroute.id → (id ∈ seenNext ↔ id ∈ seen)
  through : parts.reroute.id ∈ seenNext →
    ∀ id ∈ parts.exits, id ∈ seen ∨ stack.head? = some id
  conducts : ∀ id ∈ stack, Conducts next id

namespace SideBySide

variable {parts : Subdivision graph next given} {seenNext seen stack : List NodeId} {id : NodeId}

theorem exits_seen (side : parts.SideBySide seenNext seen (parts.reroute.id :: stack))
    (known : parts.reroute.id ∈ seenNext) : ∀ exit ∈ parts.exits, exit ∈ seen := by
  intro exit member
  rcases side.through known exit member with seenExit | atTop
  · exact seenExit
  · exact absurd (Option.some.inj atTop).symm (ne_of_mem_exits member)

theorem pop_seen (side : parts.SideBySide seenNext seen (id :: stack)) (known : id ∈ seenNext) :
    parts.SideBySide seenNext seen stack := by
  refine ⟨side.same, ?_, (List.forall_mem_cons.mp side.conducts).2⟩
  intro entered exit member
  by_cases atReroute : id = parts.reroute.id
  · subst id
    exact Or.inl (side.exits_seen known exit member)
  · rcases side.through entered exit member with seenExit | atTop
    · exact Or.inl seenExit
    · exact Or.inl (Option.some.inj atTop ▸ (side.same id atReroute).mp known)

theorem pop_absent (side : parts.SideBySide seenNext seen (id :: stack))
    (absent : graph.node? id = none) : parts.SideBySide seenNext seen stack := by
  refine ⟨side.same, ?_, (List.forall_mem_cons.mp side.conducts).2⟩
  intro entered exit member
  rcases side.through entered exit member with seenExit | atTop
  · exact Or.inl seenExit
  · obtain ⟨target, found, _, atExit, _⟩ := eq_of_mem_exits member
    have present := node?_id found
    rw [atExit, ← Option.some.inj atTop, absent] at present
    cases present

-- the original stands still: the exits of the reroute are on its stack already
theorem pass (side : parts.SideBySide seenNext seen (parts.reroute.id :: stack))
    (ends : graph.EndsPresent) :
    parts.SideBySide (parts.reroute.id :: seenNext) seen (parts.exits ++ stack) := by
  refine ⟨?_, ?_, ?_⟩
  · intro other different
    rw [List.mem_cons, or_iff_right different]
    exact side.same other different
  · intro _ exit member
    obtain ⟨_, _, _, _, single⟩ := eq_of_mem_exits member
    rw [single]
    exact Or.inr rfl
  · intro other member
    rcases List.mem_append.mp member with exit | pending
    · rw [← parts.successors_reroute ends] at exit
      exact conducts_of_successor parts.node?_reroute exit
    · exact side.conducts other (List.mem_cons_of_mem _ pending)

theorem enter (side : parts.SideBySide seenNext seen (id :: stack)) {node : Node}
    (other : id ≠ parts.reroute.id) (found : next.node? id = some node) :
    parts.SideBySide (id :: seenNext) (id :: seen) (next.successors node ++ stack) := by
  refine ⟨?_, ?_, ?_⟩
  · intro later different
    rw [List.mem_cons, List.mem_cons, side.same later different]
  · intro entered exit member
    have before : parts.reroute.id ∈ seenNext :=
      (List.mem_cons.mp entered).resolve_left (fun equal => other equal.symm)
    rcases side.through before exit member with seenExit | atTop
    · exact Or.inl (List.mem_cons_of_mem id seenExit)
    · exact Or.inl (List.mem_cons.mpr (Or.inl (Option.some.inj atTop).symm))
  · intro later member
    rcases List.mem_append.mp member with entered | pending
    · exact conducts_of_successor (node?_id found) entered
    · exact side.conducts later (List.mem_cons_of_mem id pending)

end SideBySide

theorem trail_merged (parts : Subdivision graph next given) (ends : graph.EndsPresent)
    (named : graph.TaskOutputsNamed) (unclaimed : given.claimed? = none)
    {seen seenNext stack : List NodeId} (side : parts.SideBySide seenNext seen stack) :
    (next.trail seenNext stack).filter (fun id => id ≠ parts.reroute.id) =
      graph.trail seen (stack.flatMap parts.merged) := by
  fun_induction next.trail seenNext stack generalizing seen with
  | case1 seenNext =>
      rw [List.flatMap_nil, trail]
      rfl
  | case2 seenNext id stack known ih =>
      rw [ih (side.pop_seen known), List.flatMap_cons]
      by_cases atReroute : id = parts.reroute.id
      · subst id
        rw [merged, if_pos rfl, trail_append_seen (side.exits_seen known)]
      · have seenId : id ∈ seen := (side.same id atReroute).mp known
        rw [merged, if_neg atReroute, List.singleton_append, trail_seen seenId]
  | case3 seenNext id stack fresh absent ih =>
      have atOther : id ≠ parts.reroute.id := by
        intro atReroute
        rw [atReroute, parts.node?_reroute] at absent
        cases absent
      have absentBefore : graph.node? id = none := by
        rw [← parts.node?_of_ne atOther]
        exact absent
      rw [ih (side.pop_absent absentBefore), List.flatMap_cons, merged, if_neg atOther,
        List.singleton_append, trail_absent absentBefore]
  | case4 seenNext id stack fresh node found ih =>
      by_cases atReroute : id = parts.reroute.id
      · subst id
        rw [parts.node?_reroute] at found
        cases found
        rw [parts.successors_reroute ends] at ih ⊢
        rw [List.filter_cons_of_neg (by simp), ih (side.pass ends), List.flatMap_append,
          flatMap_merged (fun _ => ne_of_mem_exits), List.flatMap_cons, merged, if_pos rfl]
      · have foundBefore : graph.node? id = some node := by
          rw [← parts.node?_of_ne atReroute]
          exact found
        have freshBefore : id ∉ seen := fun known => fresh ((side.same id atReroute).mpr known)
        have claimed := side.conducts id List.mem_cons_self node found
        rw [List.filter_cons_of_pos (by simpa using atReroute), List.flatMap_cons, merged,
          if_neg atReroute, List.singleton_append, trail_fresh freshBefore foundBefore,
          ih (side.enter atReroute found), List.flatMap_append,
          parts.successors_merged ends named unclaimed claimed (node?_id foundBefore)]

/-! ### The task order of the split graph -/

theorem isTask_eq (parts : Subdivision graph next given) {id : NodeId}
    (other : id ≠ parts.reroute.id) : next.isTask id = graph.isTask id := by
  unfold isTask
  rw [parts.node?_of_ne other]

theorem isTask_reroute (parts : Subdivision graph next given) :
    next.isTask parts.reroute.id = false := by
  unfold isTask
  rw [parts.node?_reroute]
  simp [parts.kind]

theorem reached_eq (parts : Subdivision graph next given) (unique : graph.UniqueNodes)
    (ends : graph.EndsPresent) (named : graph.TaskOutputsNamed)
    (unclaimed : given.claimed? = none) : next.reached = graph.reached := by
  cases begins : graph.beginNode? with
  | none => rw [reached_of_noBegin begins, reached_of_noBegin (parts.beginNode?_eq.trans begins)]
  | some first =>
      have start := node?_of_mem unique (mem_of_beginNode? begins)
      have other := parts.ne_of_node? start
      have conducts : ∀ id ∈ [first.id], Conducts next id := by
        intro id member node found kind
        rw [List.mem_singleton.mp member, parts.node?_of_ne other, start] at found
        cases found
        rw [kind_of_beginNode? begins] at kind
        cases kind
      have side : parts.SideBySide [] [] [first.id] :=
        ⟨fun _ _ => Iff.rfl, fun entered => absurd entered List.not_mem_nil, conducts⟩
      have trails := parts.trail_merged ends named unclaimed side
      rw [reached_of_begin begins, reached_of_begin (parts.beginNode?_eq.trans begins)]
      rw [List.flatMap_singleton, merged, if_neg other] at trails
      rw [← trails, List.filter_filter]
      apply List.filter_congr
      intro id _
      by_cases atReroute : id = parts.reroute.id
      · simp [atReroute, parts.isTask_reroute]
      · simp [atReroute, parts.isTask_eq atReroute]

theorem sequence_eq (parts : Subdivision graph next given) (unique : graph.UniqueNodes)
    (ends : graph.EndsPresent) (named : graph.TaskOutputsNamed)
    (unclaimed : given.claimed? = none) : next.sequence = graph.sequence := by
  unfold sequence
  rw [parts.reached_eq unique ends named unclaimed, parts.tasks_eq]

theorem taskOutputsNamed (parts : Subdivision graph next given) (ends : graph.EndsPresent)
    (named : graph.TaskOutputsNamed) : next.TaskOutputsNamed := by
  intro edge member source found kind
  have ofOld : ∀ old ∈ graph.edges, next.node? old.source = some source →
      old.sourceHandle = some .execOut ∨ old.sourceHandle = some .agentOut := by
    intro old present atSource
    rw [parts.node?_of_ne (parts.ne_of_mem_nodeIds (ends old present).1)] at atSource
    exact named old present source atSource kind
  rcases parts.mem_nextEdges member with old | isHead | isTail
  · exact ofOld edge old found
  · subst edge
    exact ofOld parts.edge parts.edge_mem found
  · subst edge
    rw [show (parts.edge.tail parts.reroute.id parts.tailId).source = parts.reroute.id from rfl,
      parts.node?_reroute] at found
    cases found
    rw [parts.kind] at kind
    cases kind

end Subdivision

end Graph

end CrewCanvas
