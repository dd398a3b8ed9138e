/-
Graphs that look the same to a walk.

A walk back sees of an edge only whether a source or an open reroute is behind it, and a walk
forward only where control flow enters next.  Two graphs that show the same to a walk, edge
after edge, make the same walk, whatever else they differ in.
-/

import CrewCanvas.Proofs.SupplyChain
import CrewCanvas.Proofs.TaskOrder

namespace CrewCanvas.Graph

variable {graph next : Graph} {line : LineKind} {α : Type}

/-! ### What an edge shows to the walk back -/

/-- What stands behind an edge: a source, by what is shown of it, or a reroute that is claimed
for the line. -/
inductive Sight (α : Type)
  | source (shown : α)
  | reroute (id : NodeId)

def sight (graph : Graph) (line : LineKind) (shown : Node → Option α) (edge : Edge) :
    Option (Sight α) :=
  match graph.node? edge.source with
  | none => none
  | some source =>
      if source.kind = .reroute then
        if source.claimed? = some line then some (.reroute edge.source) else none
      else if edge.carries source line then (shown source).map Sight.source
      else none

theorem reroute_of_sight {shown : Node → Option α} {edge : Edge} {id : NodeId}
    (seen : graph.sight line shown edge = some (.reroute id)) :
    ∃ reroute, graph.node? id = some reroute ∧ reroute.claimed? = some line := by
  unfold sight at seen
  split at seen
  · cases seen
  · rename_i reroute found
    split at seen
    · split at seen
      · rename_i claimed
        cases seen
        exact ⟨reroute, found, claimed⟩
      · cases seen
    · split at seen
      · obtain ⟨_, _, impossible⟩ := Option.map_eq_some_iff.mp seen
        cases impossible
      · cases seen

/-- One step of the walk back, by what its edge shows. -/
theorem feeders_sight (shown : Node → Option α) (passed : List NodeId) (edge : Edge)
    (stack : List Edge) :
    (graph.feeders line passed (edge :: stack)).filterMap shown =
      match graph.sight line shown edge with
      | none => (graph.feeders line passed stack).filterMap shown
      | some (.source value) => value :: (graph.feeders line passed stack).filterMap shown
      | some (.reroute id) =>
          if id ∈ passed then (graph.feeders line passed stack).filterMap shown
          else (graph.feeders line (id :: passed) (graph.incoming id ++ stack)).filterMap shown := by
  unfold sight
  cases found : graph.node? edge.source with
  | none => rw [feeders_absent found]
  | some source =>
      by_cases kind : source.kind = .reroute
      · by_cases claimed : source.claimed? = some line
        · by_cases known : edge.source ∈ passed
          · simp [feeders_closed found kind (Or.inr known), kind, claimed, known]
          · simp [feeders_open found kind claimed known, kind, claimed, known]
        · simp [feeders_closed found kind (Or.inl claimed), kind, claimed]
      · cases carries : edge.carries source line with
        | false => simp [feeders_barred found carries, kind, carries]
        | true =>
            rw [feeders_source found carries kind]
            cases isShown : shown source <;> simp [kind, carries, isShown]

theorem feeders_skip {shown : Node → Option α} {passed : List NodeId} {front : List Edge}
    (unseen : ∀ edge ∈ front, graph.sight line shown edge = none) (back : List Edge) :
    (graph.feeders line passed (front ++ back)).filterMap shown =
      (graph.feeders line passed back).filterMap shown := by
  induction front with
  | nil => rfl
  | cons edge front ih =>
      rw [List.cons_append, feeders_sight, unseen edge List.mem_cons_self]
      exact ih (fun other member => unseen other (List.mem_cons_of_mem edge member))

/-! ### The same walk back -/

/-- The walks back of two graphs show the same, if the stacks and the edges into each open
reroute do. -/
theorem feeders_congr {shown shownNext : Node → Option α}
    (incoming : ∀ id reroute, graph.node? id = some reroute → reroute.claimed? = some line →
      (next.incoming id).filterMap (next.sight line shownNext) =
        (graph.incoming id).filterMap (graph.sight line shown))
    (passed : List NodeId) (stackNext stack : List Edge)
    (showSame : stackNext.filterMap (next.sight line shownNext) =
      stack.filterMap (graph.sight line shown)) :
    (next.feeders line passed stackNext).filterMap shownNext =
      (graph.feeders line passed stack).filterMap shown := by
  match stack with
  | [] =>
      have nothing : (next.feeders line passed (stackNext ++ [])).filterMap shownNext =
          (next.feeders line passed []).filterMap shownNext :=
        feeders_skip (List.filterMap_eq_nil_iff.mp showSame) []
      rw [List.append_nil] at nothing
      rw [nothing, feeders, feeders]
      rfl
  | edge :: rest =>
      rw [feeders_sight]
      cases seen : graph.sight line shown edge with
      | none =>
          rw [List.filterMap_cons_none seen] at showSame
          exact feeders_congr incoming passed stackNext rest showSame
      | some sight =>
          -- the other stack may begin with edges that show nothing; its walk drops them
          rw [List.filterMap_cons_some seen] at showSame
          obtain ⟨front, edgeNext, back, parts, unseen, seenNext, rests⟩ :=
            List.filterMap_eq_cons_iff.mp showSame
          rw [parts, feeders_skip unseen, feeders_sight, seenNext]
          cases sight with
          | source value =>
              simp only
              rw [feeders_congr incoming passed back rest rests]
          | reroute id =>
              obtain ⟨reroute, found, claimed⟩ := reroute_of_sight seen
              by_cases known : id ∈ passed
              · simp only [if_pos known]
                exact feeders_congr incoming passed back rest rests
              · simp only [if_neg known]
                apply feeders_congr incoming (id :: passed)
                rw [List.filterMap_append, List.filterMap_append, rests,
                  incoming id reroute found claimed]
termination_by (graph.unseen passed, stack.length)
decreasing_by
  · exact Prod.Lex.right _ (Nat.lt_succ_self _)
  · exact Prod.Lex.right _ (Nat.lt_succ_self _)
  · exact Prod.Lex.right _ (Nat.lt_succ_self _)
  · exact Prod.Lex.left _ _ (unseen_cons_lt found known)

/-- The edges into a node show the same in both graphs, whichever handles they enter. -/
def SameInto (graph next : Graph) (line : LineKind) (shown shownNext : Node → Option α)
    (id : NodeId) : Prop :=
  ∀ keep : Option Handle → Bool,
    ((next.incoming id).filter (fun edge => keep edge.targetHandle)).filterMap
        (next.sight line shownNext) =
      ((graph.incoming id).filter (fun edge => keep edge.targetHandle)).filterMap
        (graph.sight line shown)

theorem feedersInto_congr {shown shownNext : Node → Option α}
    (reroutes : ∀ id reroute, graph.node? id = some reroute → reroute.claimed? = some line →
      SameInto graph next line shown shownNext id)
    {id : NodeId} (own : SameInto graph next line shown shownNext id) (handle : Handle) :
    (next.feedersInto id handle line).filterMap shownNext =
      (graph.feedersInto id handle line).filterMap shown := by
  apply feeders_congr
  · intro other reroute found claimed
    have all := reroutes other reroute found claimed (fun _ => true)
    rw [List.filter_eq_self.mpr (fun _ _ => rfl), List.filter_eq_self.mpr (fun _ _ => rfl)] at all
    exact all
  · exact own (fun entered => entered = some handle)

theorem predecessors_congr {id : NodeId}
    (same : ∀ other, (other = id ∨ ∃ reroute, graph.node? other = some reroute ∧
        reroute.claimed? = some .execution) →
      SameInto graph next .execution
        (Option.guard (fun node => node.kind = .task ∧ node.id ≠ id))
        (Option.guard (fun node => node.kind = .task ∧ node.id ≠ id)) other) :
    next.predecessors id = graph.predecessors id := by
  have feeders := feedersInto_congr
    (fun other reroute found claimed => same other (Or.inr ⟨reroute, found, claimed⟩))
    (same id (Or.inl rfl)) .execIn
  rw [List.filterMap_eq_filter] at feeders
  unfold predecessors
  rw [feeders]

theorem agentFor?_congr
    (same : ∀ other, SameInto graph next .agent (Option.guard (fun node => node.kind = .agent))
      (Option.guard (fun node => node.kind = .agent)) other) (id : NodeId) :
    next.agentFor? id = graph.agentFor? id := by
  have feeders := feedersInto_congr (fun other _ _ _ => same other) (same id) .agent
  rw [List.filterMap_eq_filter] at feeders
  unfold agentFor?
  rw [← List.head?_filter, ← List.head?_filter, feeders]

/-! ### The same walk forward -/

/-- A trail is the same in a graph where control flow enters the same nodes from each node that
it meets. -/
theorem trail_congr {seen stack : List NodeId}
    (same : ∀ id ∈ graph.trail seen stack, ∀ node, graph.node? id = some node →
      ∃ other, next.node? id = some other ∧ next.successors other = graph.successors node)
    (present : ∀ id ∈ stack, ∃ node, graph.node? id = some node) :
    next.trail seen stack = graph.trail seen stack := by
  fun_induction graph.trail seen stack with
  | case1 seen => rw [trail]
  | case2 seen id stack known ih =>
      rw [trail_seen known]
      exact ih same (fun other member => present other (List.mem_cons_of_mem id member))
  | case3 seen id stack fresh absent ih =>
      obtain ⟨node, found⟩ := present id List.mem_cons_self
      rw [absent] at found
      cases found
  | case4 seen id stack fresh node found ih =>
      obtain ⟨other, foundNext, successors⟩ := same id List.mem_cons_self node found
      rw [trail_fresh fresh foundNext, successors,
        ih (fun later member => same later (List.mem_cons_of_mem id member))]
      intro later member
      rcases List.mem_append.mp member with entered | pending
      · obtain ⟨_, target, step, atLater⟩ := (mem_successors_iff (node?_id found)).mp entered
        exact ⟨target, atLater ▸ step.found⟩
      · exact present later (List.mem_cons_of_mem id pending)

theorem Leads.last_found {avoided : List NodeId} {first last : NodeId}
    (leads : Leads graph avoided first last) : ∃ node, graph.node? last = some node := by
  induction leads with
  | here _ found => exact ⟨_, found⟩
  | onward _ _ _ _ ih => exact ih

def Meets (graph : Graph) (id : NodeId) : Prop :=
  ∃ first, graph.beginNode? = some first ∧ graph.Leads [] first.id id

theorem reached_congr
    (same : ∀ id node, graph.Meets id → graph.node? id = some node →
      ∃ other, next.node? id = some other ∧ other.kind = node.kind ∧
        next.successors other = graph.successors node)
    (begins : next.beginNode?.map Node.id = graph.beginNode?.map Node.id) :
    next.reached = graph.reached := by
  cases begin : graph.beginNode? with
  | none =>
      rw [begin, Option.map_none, Option.map_eq_none_iff] at begins
      rw [reached_of_noBegin begin, reached_of_noBegin begins]
  | some first =>
      rw [begin, Option.map_some, Option.map_eq_some_iff] at begins
      obtain ⟨firstNext, beginNext, sameId⟩ := begins
      have met {id : NodeId} (member : id ∈ graph.trail [] [first.id]) : graph.Meets id := by
        obtain ⟨start, atFirst, leads⟩ := mem_trail_iff.mp member
        exact ⟨first, begin, List.mem_singleton.mp atFirst ▸ leads⟩
      have present : ∀ id ∈ [first.id], ∃ node, graph.node? id = some node := by
        intro id member
        rw [List.mem_singleton.mp member, ← mem_nodeIds_iff]
        exact List.mem_map_of_mem (mem_of_beginNode? begin)
      have trails : next.trail [] [first.id] = graph.trail [] [first.id] := by
        refine trail_congr ?_ present
        intro id member node found
        obtain ⟨other, foundNext, _, successors⟩ := same id node (met member) found
        exact ⟨other, foundNext, successors⟩
      rw [reached_of_begin begin, reached_of_begin beginNext, sameId, trails]
      apply List.filter_congr
      intro id member
      obtain ⟨_, _, leads⟩ := met member
      obtain ⟨node, found⟩ := leads.last_found
      obtain ⟨other, foundNext, kind, _⟩ := same id node (met member) found
      rw [isTask, isTask, found, foundNext, Option.any_some, Option.any_some, kind]

def outline (graph : Graph) : List (NodeId × NodeKind) :=
  graph.nodes.map (fun node => (node.id, node.kind))

theorem beginId_eq (graph : Graph) :
    graph.beginNode?.map Node.id =
      (graph.outline.find? (fun entry => entry.2 = .begin)).map Prod.fst := by
  unfold outline beginNode?
  rw [List.find?_map, Option.map_map]
  rfl

theorem taskIds_eq (graph : Graph) :
    graph.tasks.map Node.id =
      (graph.outline.filter (fun entry => entry.2 = .task)).map Prod.fst := by
  unfold outline tasks
  rw [List.filter_map, List.map_map]
  rfl

theorem sequence_congr
    (same : ∀ id node, graph.node? id = some node →
      ∃ other, next.node? id = some other ∧ other.kind = node.kind ∧
        next.successors other = graph.successors node)
    (outlines : next.outline = graph.outline) : next.sequence = graph.sequence := by
  have begins : next.beginNode?.map Node.id = graph.beginNode?.map Node.id := by
    rw [beginId_eq, beginId_eq, outlines]
  unfold sequence
  rw [reached_congr (fun id node _ => same id node) begins, taskIds_eq, taskIds_eq, outlines]

/-! ### Nodes that look the same -/

/-- A node that walks for a line cannot tell from another one, but by what they show of it. -/
structure SameFor (line : LineKind) (node other : Node) : Prop where
  id : other.id = node.id
  kind : other.kind = node.kind
  claimed : other.claimed? = some line ↔ node.claimed? = some line

theorem SameFor.refl (node : Node) : SameFor line node node :=
  ⟨rfl, rfl, Iff.rfl⟩

theorem SameFor.carries {node other : Node} (same : SameFor line node other) (edge : Edge)
    (kind : LineKind) : edge.carries other kind = edge.carries node kind := by
  unfold Edge.carries
  rw [same.kind]

theorem rel_imp {β : Type} {r s : α → β → Prop} {left : Option α} {right : Option β}
    (rel : Option.Rel r left right) (imp : ∀ a b, r a b → s a b) : Option.Rel s left right := by
  cases rel with
  | none => exact Option.Rel.none
  | some related => exact Option.Rel.some (imp _ _ related)

theorem sight_congr {shown shownNext : Node → Option α} {edge : Edge}
    (sources : Option.Rel (fun node other => SameFor line node other ∧
      (node.kind ≠ .reroute → shownNext other = shown node))
      (graph.node? edge.source) (next.node? edge.source)) :
    next.sight line shownNext edge = graph.sight line shown edge := by
  unfold sight
  generalize graph.node? edge.source = before, next.node? edge.source = after at sources
  cases sources with
  | none => rfl
  | some alike =>
      obtain ⟨same, shows⟩ := alike
      simp only [same.kind, same.claimed, same.carries]
      split
      · rfl
      · rename_i kind
        rw [shows kind]

theorem entered?_congr {source sourceNext : Node} {edge : Edge}
    (kind : sourceNext.kind = source.kind)
    (targets : Option.Rel (SameFor .execution) (graph.node? edge.target)
      (next.node? edge.target)) :
    (next.entered? sourceNext edge).map Node.id = (graph.entered? source edge).map Node.id := by
  unfold entered?
  generalize graph.node? edge.target = before, next.node? edge.target = after at targets
  cases targets with
  | none => rfl
  | @some target other same =>
      have leads : edge.leadsOn sourceNext other = edge.leadsOn source target := by
        rw [Bool.eq_iff_iff, Edge.leadsOn_iff, Edge.leadsOn_iff, kind, same.kind, same.claimed]
      rw [Option.filter_some, Option.filter_some, leads]
      split
      · exact congrArg some same.id
      · rfl

end CrewCanvas.Graph
