/-
A split edge and what feeds a task.

The backward walk of the split graph comes to the split edge through the new
reroute, where the walk of the original comes to the edge itself.  It does so at
most once, so both walks meet the same tasks and the same agents in the same order.
-/

import CrewCanvas.Proofs.SplitOrder
import CrewCanvas.Proofs.SupplyChain

namespace CrewCanvas

namespace Graph

theorem splitClaim_of_feeder {edge : Edge} {source : Node} {line : LineKind}
    (kind : source.kind = line.feeder) (carries : edge.carries source line = true)
    (named : source.kind = .task →
      edge.sourceHandle = some .execOut ∨ edge.sourceHandle = some .agentOut) :
    splitClaim source edge.sourceHandle = some line := by
  cases line with
  | execution =>
      change source.kind = .task at kind
      exact splitClaim_execution (by simp [kind]) (by simp [kind]) carries named
  | agent =>
      change source.kind = .agent at kind
      simp [splitClaim, Node.feeds, kind]

namespace Subdivision

variable {graph next : Graph} {given : Node}

/-- The edge that stands in the original for an edge of the split graph: both halves of
the split edge stand for it. -/
def mergedEdge (parts : Subdivision graph next given) (edge : Edge) : Edge :=
  if edge.source = parts.reroute.id ∨ edge.target = parts.reroute.id then parts.edge else edge

theorem mergedEdge_old (parts : Subdivision graph next given) (ends : graph.EndsPresent)
    {edge : Edge} (old : edge ∈ graph.edges) : parts.mergedEdge edge = edge := by
  apply if_neg
  rintro (leaves | enters)
  · exact parts.ne_of_mem_nodeIds (ends edge old).1 leaves
  · exact parts.ne_of_mem_nodeIds (ends edge old).2 enters

theorem mergedEdge_tail (parts : Subdivision graph next given) {edge : Edge}
    (leaves : edge.source = parts.reroute.id) : parts.mergedEdge edge = parts.edge :=
  if_pos (Or.inl leaves)

theorem mergedEdge_head (parts : Subdivision graph next given) :
    parts.mergedEdge (parts.edge.head parts.reroute.id) = parts.edge :=
  if_pos (Or.inr rfl)

theorem mergedEdge_leaves (parts : Subdivision graph next given) (ends : graph.EndsPresent)
    {edge : Edge} (present : edge ∈ next.edges) (other : edge.source ≠ parts.reroute.id) :
    (parts.mergedEdge edge).source = edge.source ∧
      (parts.mergedEdge edge).sourceHandle = edge.sourceHandle := by
  rcases parts.mem_nextEdges present with old | isHead | isTail
  · rw [parts.mergedEdge_old ends old]
    exact ⟨rfl, rfl⟩
  · subst edge
    rw [parts.mergedEdge_head]
    exact ⟨rfl, rfl⟩
  · subst edge
    exact absurd rfl other

theorem mergedEdge_source (parts : Subdivision graph next given) (ends : graph.EndsPresent)
    {edge : Edge} (present : edge ∈ next.edges) (other : edge.source ≠ parts.reroute.id)
    {source : Node} (found : next.node? edge.source = some source) :
    graph.node? (parts.mergedEdge edge).source = some source ∧
      ∀ line, (parts.mergedEdge edge).carries source line = edge.carries source line := by
  obtain ⟨sameSource, sameHandle⟩ := parts.mergedEdge_leaves ends present other
  constructor
  · rw [sameSource, ← parts.node?_of_ne other]
    exact found
  · intro line
    unfold Edge.carries
    rw [sameHandle]

/-! ### Edges into a node of the split graph -/

theorem incoming_parts (parts : Subdivision graph next given) (id : NodeId) :
    graph.incoming id = parts.front.filter (fun edge => edge.target = id) ++
      ([parts.edge].filter (fun edge => edge.target = id) ++
        parts.back.filter (fun edge => edge.target = id)) := by
  unfold incoming
  rw [parts.edges_eq, ← List.filter_append, ← List.filter_append]
  rfl

theorem nextIncoming_parts (parts : Subdivision graph next given) (id : NodeId) :
    next.incoming id = parts.front.filter (fun edge => edge.target = id) ++
      ([parts.edge.head parts.reroute.id].filter (fun edge => edge.target = id) ++
        ([parts.edge.tail parts.reroute.id parts.tailId].filter (fun edge => edge.target = id) ++
          parts.back.filter (fun edge => edge.target = id))) := by
  unfold incoming
  rw [parts.nextEdges, ← List.filter_append, ← List.filter_append, ← List.filter_append]
  rfl

theorem map_mergedEdge_old (parts : Subdivision graph next given) (ends : graph.EndsPresent)
    {edges : List Edge} (old : ∀ edge ∈ edges, edge ∈ graph.edges) (id : NodeId) :
    (edges.filter (fun edge => edge.target = id)).map parts.mergedEdge =
      edges.filter (fun edge => edge.target = id) := by
  have same : (edges.filter (fun edge => edge.target = id)).map parts.mergedEdge =
      (edges.filter (fun edge => edge.target = id)).map (fun edge => edge) := by
    apply List.map_congr_left
    intro edge member
    exact parts.mergedEdge_old ends (old edge (List.mem_filter.mp member).1)
  rw [same, List.map_id']

theorem incoming_merged (parts : Subdivision graph next given) (ends : graph.EndsPresent)
    {id : NodeId} (other : id ≠ parts.reroute.id) :
    (next.incoming id).map parts.mergedEdge = graph.incoming id := by
  have head : [parts.edge.head parts.reroute.id].filter (fun edge => edge.target = id) = [] := by
    simp [Edge.head, Ne.symm other]
  have tail : ([parts.edge.tail parts.reroute.id parts.tailId].filter
      (fun edge => edge.target = id)).map parts.mergedEdge =
      [parts.edge].filter (fun edge => edge.target = id) := by
    by_cases enters : parts.edge.target = id
    · rw [List.filter_cons_of_pos (by simp [Edge.tail, enters]),
        List.filter_cons_of_pos (by simp [enters]), List.filter_nil, List.map_singleton,
        parts.mergedEdge_tail rfl]
    · rw [List.filter_cons_of_neg (by simp [Edge.tail, enters]),
        List.filter_cons_of_neg (by simp [enters]), List.filter_nil, List.map_nil]
  rw [parts.nextIncoming_parts, parts.incoming_parts, head, List.nil_append, List.map_append,
    List.map_append, tail, parts.map_mergedEdge_old ends (fun _ => parts.front_mem),
    parts.map_mergedEdge_old ends (fun _ => parts.back_mem)]

theorem filter_into_reroute (parts : Subdivision graph next given) (ends : graph.EndsPresent)
    {edges : List Edge} (old : ∀ edge ∈ edges, edge ∈ graph.edges) :
    edges.filter (fun edge => edge.target = parts.reroute.id) = [] := by
  apply List.filter_eq_nil_iff.mpr
  intro edge member
  simpa using parts.ne_of_mem_nodeIds (ends edge (old edge member)).2

theorem incoming_reroute (parts : Subdivision graph next given) (ends : graph.EndsPresent) :
    next.incoming parts.reroute.id = [parts.edge.head parts.reroute.id] := by
  have tail : [parts.edge.tail parts.reroute.id parts.tailId].filter
      (fun edge => edge.target = parts.reroute.id) = [] := by
    have other := parts.ne_of_mem_nodeIds (ends parts.edge parts.edge_mem).2
    simp [Edge.tail, other]
  rw [parts.nextIncoming_parts, tail, parts.filter_into_reroute ends (fun _ => parts.front_mem),
    parts.filter_into_reroute ends (fun _ => parts.back_mem)]
  simp [Edge.head]

theorem mergedEdge_enters (parts : Subdivision graph next given) (ends : graph.EndsPresent)
    {edge : Edge} (present : edge ∈ next.edges) (other : edge.target ≠ parts.reroute.id) :
    (parts.mergedEdge edge).targetHandle = edge.targetHandle := by
  rcases parts.mem_nextEdges present with old | isHead | isTail
  · rw [parts.mergedEdge_old ends old]
  · subst edge
    exact absurd rfl other
  · subst edge
    rw [parts.mergedEdge_tail rfl]
    rfl

/-- The edges into a handle are those of the original, with the edge for its second half. -/
theorem incoming_handle_merged (parts : Subdivision graph next given) (ends : graph.EndsPresent)
    {id : NodeId} (other : id ≠ parts.reroute.id) (handle : Handle) :
    ((next.incoming id).filter (fun edge => edge.targetHandle = some handle)).map
      parts.mergedEdge =
      (graph.incoming id).filter (fun edge => edge.targetHandle = some handle) := by
  rw [← parts.incoming_merged ends other, List.filter_map]
  congr 1
  apply List.filter_congr
  intro edge member
  obtain ⟨present, enters⟩ := mem_incoming_iff.mp member
  have same := parts.mergedEdge_enters ends present (enters ▸ other)
  simp only [Function.comp_apply, same]

/-! ### How often a walk comes to the reroute -/

def tails (parts : Subdivision graph next given) (stack : List Edge) : Nat :=
  stack.countP (fun edge => edge.source = parts.reroute.id)

theorem tails_append (parts : Subdivision graph next given) (front back : List Edge) :
    parts.tails (front ++ back) = parts.tails front + parts.tails back :=
  List.countP_append

theorem tails_incoming (parts : Subdivision graph next given) (ends : graph.EndsPresent)
    (id : NodeId) :
    parts.tails (next.incoming id) = if parts.edge.target = id then 1 else 0 := by
  have nothing : ∀ edges : List Edge, (∀ edge ∈ edges, edge ∈ graph.edges) →
      parts.tails (edges.filter (fun edge => edge.target = id)) = 0 := by
    intro edges old
    apply List.countP_eq_zero.mpr
    intro edge member
    have present := old edge (List.mem_filter.mp member).1
    simpa using parts.ne_of_mem_nodeIds (ends edge present).1
  have head : parts.tails ([parts.edge.head parts.reroute.id].filter
      (fun edge => edge.target = id)) = 0 := by
    apply List.countP_eq_zero.mpr
    intro edge member
    rw [List.mem_singleton.mp (List.mem_filter.mp member).1]
    simp [Edge.head, parts.ne_of_node? parts.leaves]
  rw [parts.nextIncoming_parts, tails_append, tails_append, tails_append,
    nothing _ (fun _ => parts.front_mem), nothing _ (fun _ => parts.back_mem), head]
  by_cases enters : parts.edge.target = id
  · rw [if_pos enters, List.filter_cons_of_pos (by simp [Edge.tail, enters])]
    simp [tails, Edge.tail]
  · rw [if_neg enters, List.filter_cons_of_neg (by simp [Edge.tail, enters])]
    simp [tails]

/-- What a backward walk from a node keeps about the reroute: the second half of the split
edge is on the stack at most once, not after it was followed, and only once the edges
into its end have been pushed. -/
structure PassedOnce (parts : Subdivision graph next given) (start : NodeId)
    (passed : List NodeId) (stack : List Edge) : Prop where
  single : parts.tails stack ≤ 1
  spent : parts.reroute.id ∈ passed → parts.tails stack = 0
  pushed : parts.reroute.id ∈ passed ∨ parts.tails stack ≠ 0 →
    parts.edge.target = start ∨ parts.edge.target ∈ passed

namespace PassedOnce

variable {parts : Subdivision graph next given} {start : NodeId} {passed : List NodeId}
  {edge : Edge} {stack : List Edge}

theorem tails_cons_other (other : edge.source ≠ parts.reroute.id) :
    parts.tails (edge :: stack) = parts.tails stack :=
  List.countP_cons_of_neg (by simpa using other)

theorem tails_cons_own (own : edge.source = parts.reroute.id) :
    parts.tails (edge :: stack) = parts.tails stack + 1 :=
  List.countP_cons_of_pos (by simpa using own)

theorem pop (once : parts.PassedOnce start passed (edge :: stack)) :
    parts.PassedOnce start passed stack := by
  have fewer : parts.tails stack ≤ parts.tails (edge :: stack) :=
    (List.sublist_cons_self edge stack).countP_le
  refine ⟨Nat.le_trans fewer once.single, ?_, ?_⟩
  · intro entered
    have none_left := once.spent entered
    omega
  · rintro (entered | pending)
    · exact once.pushed (Or.inl entered)
    · exact once.pushed (Or.inr (by omega))

theorem fresh (once : parts.PassedOnce start passed (edge :: stack))
    (own : edge.source = parts.reroute.id) : parts.reroute.id ∉ passed := by
  intro entered
  have none_left := once.spent entered
  rw [tails_cons_own own] at none_left
  cases none_left

-- the walk follows the second half of the split edge and pushes the first
theorem follow (once : parts.PassedOnce start passed (edge :: stack))
    (own : edge.source = parts.reroute.id) :
    parts.PassedOnce start (parts.reroute.id :: passed)
      (parts.edge.head parts.reroute.id :: stack) := by
  have single := once.single
  have pushed := once.pushed
  rw [tails_cons_own own] at single pushed
  have none_left : parts.tails (parts.edge.head parts.reroute.id :: stack) = 0 := by
    have otherHead : (parts.edge.head parts.reroute.id).source ≠ parts.reroute.id :=
      parts.ne_of_node? parts.leaves
    rw [tails_cons_other otherHead]
    omega
  refine ⟨by omega, fun _ => none_left, ?_⟩
  intro _
  rcases pushed (Or.inr (Nat.succ_ne_zero _)) with atStart | behind
  · exact Or.inl atStart
  · exact Or.inr (List.mem_cons_of_mem _ behind)

-- the walk passes another reroute and pushes the edges into it
theorem expand (once : parts.PassedOnce start passed (edge :: stack)) (ends : graph.EndsPresent)
    (other : edge.source ≠ parts.reroute.id) (unpassed : edge.source ∉ passed)
    (notStart : edge.source ≠ start) :
    parts.PassedOnce start (edge.source :: passed) (next.incoming edge.source ++ stack) := by
  have single := once.single
  have spent := once.spent
  have pushed := once.pushed
  rw [tails_cons_other other] at single spent pushed
  have count : parts.tails (next.incoming edge.source ++ stack) =
      (if parts.edge.target = edge.source then 1 else 0) + parts.tails stack := by
    rw [tails_append, parts.tails_incoming ends]
  have entered : parts.reroute.id ∈ edge.source :: passed ↔ parts.reroute.id ∈ passed := by
    rw [List.mem_cons, or_iff_right (Ne.symm other)]
  by_cases atTarget : parts.edge.target = edge.source
  · -- the edges into the end of the split edge are pushed here for the first time
    have unentered : ¬(parts.reroute.id ∈ passed ∨ parts.tails stack ≠ 0) := by
      intro before
      rcases pushed before with atStart | behind
      · exact notStart (atTarget ▸ atStart)
      · exact unpassed (atTarget ▸ behind)
    rw [not_or, Decidable.not_not] at unentered
    rw [if_pos atTarget] at count
    refine ⟨by omega, ?_, ?_⟩
    · intro known
      exact absurd (entered.mp known) unentered.1
    · intro _
      exact Or.inr (List.mem_cons.mpr (Or.inl atTarget))
  · rw [if_neg atTarget, Nat.zero_add] at count
    refine ⟨by omega, ?_, ?_⟩
    · intro known
      rw [count]
      exact spent (entered.mp known)
    · rw [count, entered]
      intro before
      rcases pushed before with atStart | behind
      · exact Or.inl atStart
      · exact Or.inr (List.mem_cons_of_mem _ behind)

end PassedOnce

/-! ### The walk of the split graph -/

theorem feeders_dropped (parts : Subdivision graph next given) (named : graph.TaskOutputsNamed)
    (unclaimed : given.claimed? = none) {line : LineKind} {keep : Node → Bool}
    (kept : ∀ node, keep node = true → node.kind = line.feeder)
    (otherwise : parts.reroute.claimed? ≠ some line) (passed : List NodeId) (stack : List Edge) :
    (graph.feeders line passed (parts.edge :: stack)).filter keep =
      (graph.feeders line passed stack).filter keep := by
  rw [parts.claimed, unclaimed, Option.none_or] at otherwise
  by_cases isReroute : parts.source.kind = .reroute
  · rw [splitClaim_reroute isReroute] at otherwise
    rw [feeders_closed parts.leaves isReroute (Or.inl otherwise)]
  · cases carries : parts.edge.carries parts.source line with
    | false => rw [feeders_barred parts.leaves carries]
    | true =>
        have dropped : ¬keep parts.source = true := by
          intro holds
          exact otherwise (splitClaim_of_feeder (kept _ holds) carries
            (named parts.edge parts.edge_mem parts.source parts.leaves))
        rw [feeders_source parts.leaves carries isReroute, List.filter_cons_of_neg dropped]

structure Abreast (parts : Subdivision graph next given) (start : NodeId)
    (passedNext passed : List NodeId) (stack : List Edge) : Prop where
  same : ∀ id, id ≠ parts.reroute.id → (id ∈ passedNext ↔ id ∈ passed)
  present : ∀ edge ∈ stack, edge ∈ next.edges
  once : parts.PassedOnce start passedNext stack

namespace Abreast

variable {parts : Subdivision graph next given} {start : NodeId}
  {passedNext passed : List NodeId} {edge : Edge} {stack : List Edge}

theorem top (abreast : parts.Abreast start passedNext passed (edge :: stack)) :
    edge ∈ next.edges :=
  abreast.present edge List.mem_cons_self

theorem pop (abreast : parts.Abreast start passedNext passed (edge :: stack)) :
    parts.Abreast start passedNext passed stack :=
  ⟨abreast.same, (List.forall_mem_cons.mp abreast.present).2, abreast.once.pop⟩

theorem present_incoming (abreast : parts.Abreast start passedNext passed (edge :: stack)) :
    ∀ later ∈ next.incoming edge.source ++ stack, later ∈ next.edges := by
  intro later member
  rcases List.mem_append.mp member with behind | pending
  · exact (mem_incoming_iff.mp behind).1
  · exact abreast.present later (List.mem_cons_of_mem edge pending)

-- the original stands still: the first half of the edge stands for the edge too
theorem follow (abreast : parts.Abreast start passedNext passed (edge :: stack))
    (ends : graph.EndsPresent) (own : edge.source = parts.reroute.id) :
    parts.Abreast start (parts.reroute.id :: passedNext) passed
      (parts.edge.head parts.reroute.id :: stack) := by
  refine ⟨?_, ?_, abreast.once.follow own⟩
  · intro id different
    rw [List.mem_cons, or_iff_right different]
    exact abreast.same id different
  · have present := abreast.present_incoming
    rw [own, parts.incoming_reroute ends] at present
    exact present

theorem expand (abreast : parts.Abreast start passedNext passed (edge :: stack))
    (ends : graph.EndsPresent) (other : edge.source ≠ parts.reroute.id)
    (unpassed : edge.source ∉ passedNext) (notStart : edge.source ≠ start) :
    parts.Abreast start (edge.source :: passedNext) (edge.source :: passed)
      (next.incoming edge.source ++ stack) := by
  refine ⟨?_, abreast.present_incoming, abreast.once.expand ends other unpassed notStart⟩
  intro id different
  rw [List.mem_cons, List.mem_cons, abreast.same id different]

end Abreast

theorem feeders_merged (parts : Subdivision graph next given) (ends : graph.EndsPresent)
    (named : graph.TaskOutputsNamed) (unclaimed : given.claimed? = none) {line : LineKind}
    {keep : Node → Bool} (kept : ∀ node, keep node = true → node.kind = line.feeder)
    {start : NodeId} (stop : ∀ node, graph.node? start = some node → node.kind ≠ .reroute)
    {passedNext passed : List NodeId} {stack : List Edge}
    (abreast : parts.Abreast start passedNext passed stack) :
    (next.feeders line passedNext stack).filter keep =
      (graph.feeders line passed (stack.map parts.mergedEdge)).filter keep := by
  fun_induction next.feeders line passedNext stack generalizing passed with
  | case1 passedNext =>
      rw [List.map_nil, feeders]
  | case2 passedNext edge stack absent ih =>
      have other : edge.source ≠ parts.reroute.id := by
        intro own
        rw [own, parts.node?_reroute] at absent
        cases absent
      obtain ⟨sameSource, _⟩ := parts.mergedEdge_leaves ends abreast.top other
      have absentBefore : graph.node? (parts.mergedEdge edge).source = none := by
        rw [sameSource, ← parts.node?_of_ne other]
        exact absent
      rw [List.map_cons, feeders_absent absentBefore]
      exact ih abreast.pop
  | case3 passedNext edge stack source found barred ih =>
      have barredEdge : edge.carries source line = false := by simpa using barred
      have kind : source.kind ≠ .reroute := by
        intro isReroute
        simp [Edge.carries, isReroute] at barredEdge
      have other := parts.ne_of_kind found kind
      obtain ⟨foundBefore, sameCarries⟩ := parts.mergedEdge_source ends abreast.top other found
      rw [← sameCarries line] at barredEdge
      rw [List.map_cons, feeders_barred foundBefore barredEdge]
      exact ih abreast.pop
  | case4 passedNext edge stack source found carries kind ih =>
      have carried : edge.carries source line = true := by simpa using carries
      have other := parts.ne_of_kind found kind
      obtain ⟨foundBefore, sameCarries⟩ := parts.mergedEdge_source ends abreast.top other found
      rw [← sameCarries line] at carried
      rw [List.map_cons, feeders_source foundBefore carried kind, List.filter_cons,
        List.filter_cons, ih abreast.pop]
  | case5 passedNext edge stack source found carries kind closed ih =>
      have isReroute : source.kind = .reroute := Decidable.of_not_not kind
      have rest := ih abreast.pop
      by_cases own : edge.source = parts.reroute.id
      · have otherwise : parts.reroute.claimed? ≠ some line := by
          rw [own, parts.node?_reroute] at found
          cases found
          exact closed.resolve_right (own ▸ abreast.once.fresh own)
        rw [List.map_cons, parts.mergedEdge_tail own,
          parts.feeders_dropped named unclaimed kept otherwise, rest]
      · obtain ⟨foundBefore, _⟩ := parts.mergedEdge_source ends abreast.top own found
        obtain ⟨sameSource, _⟩ := parts.mergedEdge_leaves ends abreast.top own
        have closedBefore :
            source.claimed? ≠ some line ∨ (parts.mergedEdge edge).source ∈ passed := by
          rw [sameSource, ← abreast.same edge.source own]
          exact closed
        rw [List.map_cons, feeders_closed foundBefore isReroute closedBefore, rest]
  | case6 passedNext edge stack source found carries kind opened ih =>
      have isReroute : source.kind = .reroute := Decidable.of_not_not kind
      obtain ⟨otherwise, fresh⟩ := not_or.mp opened
      have claimed : source.claimed? = some line := Decidable.of_not_not otherwise
      by_cases own : edge.source = parts.reroute.id
      · rw [own, parts.incoming_reroute ends] at ih ⊢
        rw [ih (abreast.follow ends own), List.singleton_append, List.map_cons, List.map_cons,
          parts.mergedEdge_head, parts.mergedEdge_tail own]
      · obtain ⟨foundBefore, _⟩ := parts.mergedEdge_source ends abreast.top own found
        obtain ⟨sameSource, _⟩ := parts.mergedEdge_leaves ends abreast.top own
        have freshBefore : (parts.mergedEdge edge).source ∉ passed := by
          rw [sameSource, ← abreast.same edge.source own]
          exact fresh
        have notStart : edge.source ≠ start := by
          intro atStart
          rw [sameSource, atStart] at foundBefore
          exact stop source foundBefore isReroute
        rw [List.map_cons, feeders_open foundBefore isReroute claimed freshBefore, sameSource,
          ih (abreast.expand ends own fresh notStart), List.map_append,
          parts.incoming_merged ends own]

/-- A walk that starts at a node of the original comes to the reroute at most once. -/
theorem passedOnce_into (parts : Subdivision graph next given) (ends : graph.EndsPresent)
    (id : NodeId) (handle : Handle) :
    parts.PassedOnce id []
      ((next.incoming id).filter (fun edge => edge.targetHandle = some handle)) := by
  have fewer : parts.tails ((next.incoming id).filter
      (fun edge => edge.targetHandle = some handle)) ≤ parts.tails (next.incoming id) :=
    List.filter_sublist.countP_le
  rw [parts.tails_incoming ends] at fewer
  refine ⟨?_, ?_, ?_⟩
  · split at fewer <;> omega
  · intro entered
    cases entered
  · rintro (entered | pending)
    · cases entered
    · apply Or.inl
      by_contra elsewhere
      rw [if_neg elsewhere] at fewer
      omega

theorem feedersInto_eq (parts : Subdivision graph next given) (ends : graph.EndsPresent)
    (named : graph.TaskOutputsNamed) (unclaimed : given.claimed? = none) {line : LineKind}
    {keep : Node → Bool} (kept : ∀ node, keep node = true → node.kind = line.feeder)
    {node : Node} (found : graph.node? node.id = some node) (kind : node.kind ≠ .reroute)
    (handle : Handle) :
    (next.feedersInto node.id handle line).filter keep =
      (graph.feedersInto node.id handle line).filter keep := by
  have stop : ∀ other, graph.node? node.id = some other → other.kind ≠ .reroute := by
    intro other same
    rw [found] at same
    cases same
    exact kind
  have present : ∀ edge ∈ (next.incoming node.id).filter
      (fun edge => edge.targetHandle = some handle), edge ∈ next.edges := by
    intro edge member
    exact (mem_incoming_iff.mp (List.mem_filter.mp member).1).1
  have abreast : parts.Abreast node.id [] [] ((next.incoming node.id).filter
      (fun edge => edge.targetHandle = some handle)) :=
    ⟨fun _ _ => Iff.rfl, present, parts.passedOnce_into ends node.id handle⟩
  unfold feedersInto
  rw [parts.feeders_merged ends named unclaimed kept stop abreast,
    parts.incoming_handle_merged ends (parts.ne_of_node? found)]

theorem predecessors_eq (parts : Subdivision graph next given) (ends : graph.EndsPresent)
    (named : graph.TaskOutputsNamed) (unclaimed : given.claimed? = none) {node : Node}
    (found : graph.node? node.id = some node) (kind : node.kind ≠ .reroute) :
    next.predecessors node.id = graph.predecessors node.id := by
  unfold predecessors
  rw [parts.feedersInto_eq ends named unclaimed ?_ found kind]
  intro other holds
  exact (of_decide_eq_true holds).1

theorem agentFor?_eq (parts : Subdivision graph next given) (ends : graph.EndsPresent)
    (named : graph.TaskOutputsNamed) (unclaimed : given.claimed? = none) {node : Node}
    (found : graph.node? node.id = some node) (kind : node.kind ≠ .reroute) :
    next.agentFor? node.id = graph.agentFor? node.id := by
  unfold agentFor?
  rw [← List.head?_filter, ← List.head?_filter,
    parts.feedersInto_eq ends named unclaimed ?_ found kind]
  intro other holds
  exact of_decide_eq_true holds

end Subdivision

end Graph

end CrewCanvas
