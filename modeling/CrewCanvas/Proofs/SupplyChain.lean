/-
Supply chains: what a backward walk from an input of a node meets.

A supply chain leads from a node through reroutes claimed for a kind of line into
a handle of another node.  The walk meets exactly the nodes, other than reroutes,
that have a supply chain into the handle.
-/

import CrewCanvas.Graph.Feeders

namespace CrewCanvas

def LineKind.feeder : LineKind → NodeKind
  | execution => .task
  | agent => .agent

namespace Graph

variable {graph : Graph} {line : LineKind}

/-! ### One step of the walk -/

theorem feeders_absent {passed : List NodeId} {edge : Edge} {stack : List Edge}
    (absent : graph.node? edge.source = none) :
    graph.feeders line passed (edge :: stack) = graph.feeders line passed stack := by
  rw [feeders]
  split
  · rfl
  · rename_i source found
    rw [absent] at found
    cases found

theorem feeders_barred {passed : List NodeId} {edge : Edge} {stack : List Edge} {source : Node}
    (found : graph.node? edge.source = some source) (barred : edge.carries source line = false) :
    graph.feeders line passed (edge :: stack) = graph.feeders line passed stack := by
  rw [feeders]
  split
  · rfl
  · rename_i other same
    rw [found] at same
    cases same
    simp [barred]

theorem feeders_source {passed : List NodeId} {edge : Edge} {stack : List Edge} {source : Node}
    (found : graph.node? edge.source = some source) (carries : edge.carries source line = true)
    (kind : source.kind ≠ .reroute) :
    graph.feeders line passed (edge :: stack) = source :: graph.feeders line passed stack := by
  rw [feeders]
  split
  · rename_i absent
    rw [found] at absent
    cases absent
  · rename_i other same
    rw [found] at same
    cases same
    simp [carries, kind]

theorem feeders_closed {passed : List NodeId} {edge : Edge} {stack : List Edge} {reroute : Node}
    (found : graph.node? edge.source = some reroute) (kind : reroute.kind = .reroute)
    (closed : reroute.claimed? ≠ some line ∨ edge.source ∈ passed) :
    graph.feeders line passed (edge :: stack) = graph.feeders line passed stack := by
  rw [feeders]
  split
  · rfl
  · rename_i other same
    rw [found] at same
    cases same
    simp [kind, closed]

theorem feeders_open {passed : List NodeId} {edge : Edge} {stack : List Edge} {reroute : Node}
    (found : graph.node? edge.source = some reroute) (kind : reroute.kind = .reroute)
    (claimed : reroute.claimed? = some line) (fresh : edge.source ∉ passed) :
    graph.feeders line passed (edge :: stack) =
      graph.feeders line (edge.source :: passed) (graph.incoming edge.source ++ stack) := by
  have carries : edge.carries reroute line = true := by simp [Edge.carries, kind]
  rw [feeders]
  split
  · rename_i absent
    rw [found] at absent
    cases absent
  · rename_i other same
    rw [found] at same
    cases same
    simp [carries, kind, claimed, fresh]

/-! ### What the walk meets -/

/-- A node feeds a line along an edge, through reroutes outside a list. -/
inductive Supplies (graph : Graph) (line : LineKind) (avoided : List NodeId) :
    Edge → Node → Prop
  | source {edge : Edge} {node : Node} :
      graph.node? edge.source = some node → edge.carries node line = true →
        node.kind ≠ .reroute → Supplies graph line avoided edge node
  | behind {edge before : Edge} {reroute node : Node} :
      graph.node? edge.source = some reroute → reroute.kind = .reroute →
        reroute.claimed? = some line → edge.source ∉ avoided →
        before ∈ graph.incoming edge.source → Supplies graph line avoided before node →
        Supplies graph line avoided edge node

namespace Supplies

theorem shrink {avoided : List NodeId} {id : NodeId} {edge : Edge} {node : Node}
    (supplies : Supplies graph line (id :: avoided) edge node) :
    Supplies graph line avoided edge node := by
  induction supplies with
  | source found carries kind => exact source found carries kind
  | behind found kind claimed fresh member _ ih =>
      exact behind found kind claimed (fun known => fresh (List.mem_cons_of_mem id known))
        member ih

/-- A reroute can also be avoided, unless the line comes in through it. -/
theorem avoid {avoided : List NodeId} (id : NodeId) {edge : Edge} {node : Node}
    (supplies : Supplies graph line avoided edge node) :
    Supplies graph line (id :: avoided) edge node ∨
      ∃ before ∈ graph.incoming id, Supplies graph line (id :: avoided) before node := by
  induction supplies with
  | source found carries kind => exact Or.inl (source found carries kind)
  | @behind edge before _ _ found kind claimed fresh member _ ih =>
      rcases ih with clear | rest
      · by_cases same : edge.source = id
        · exact Or.inr ⟨before, same ▸ member, clear⟩
        · exact Or.inl (behind found kind claimed (by simp [same, fresh]) member clear)
      · exact Or.inr rest

theorem not_of_absent {avoided : List NodeId} {edge : Edge} {node : Node}
    (absent : graph.node? edge.source = none) : ¬Supplies graph line avoided edge node := by
  intro supplies
  cases supplies with
  | source found _ _ => rw [absent] at found; cases found
  | behind found _ _ _ _ _ => rw [absent] at found; cases found

theorem iff_of_source {avoided : List NodeId} {edge : Edge} {source node : Node}
    (found : graph.node? edge.source = some source) (kind : source.kind ≠ .reroute) :
    Supplies graph line avoided edge node ↔
      edge.carries source line = true ∧ node = source := by
  constructor
  · intro supplies
    cases supplies with
    | source same carries _ =>
        rw [found] at same
        cases same
        exact ⟨carries, rfl⟩
    | behind same reroute _ _ _ _ =>
        rw [found] at same
        cases same
        exact absurd reroute kind
  · rintro ⟨carries, same⟩
    subst same
    exact source found carries kind

theorem iff_of_reroute {avoided : List NodeId} {edge : Edge} {reroute node : Node}
    (found : graph.node? edge.source = some reroute) (kind : reroute.kind = .reroute) :
    Supplies graph line avoided edge node ↔
      reroute.claimed? = some line ∧ edge.source ∉ avoided ∧
        ∃ before ∈ graph.incoming edge.source, Supplies graph line avoided before node := by
  constructor
  · intro supplies
    cases supplies with
    | source same _ other =>
        rw [found] at same
        cases same
        exact absurd kind other
    | behind same _ claimed fresh member rest =>
        rw [found] at same
        cases same
        exact ⟨claimed, fresh, _, member, rest⟩
  · rintro ⟨claimed, fresh, before, member, rest⟩
    exact behind found kind claimed fresh member rest

end Supplies

theorem mem_feeders_iff {passed : List NodeId} {stack : List Edge} {node : Node} :
    node ∈ graph.feeders line passed stack ↔
      ∃ edge ∈ stack, Supplies graph line passed edge node := by
  fun_induction graph.feeders line passed stack with
  | case1 passed => simp
  | case2 passed edge stack absent ih =>
      simp only [ih, List.mem_cons, exists_eq_or_imp, Supplies.not_of_absent absent, false_or]
  | case3 passed edge stack source found barred ih =>
      have nothing : ¬Supplies graph line passed edge node := by
        intro supplies
        cases supplies with
        | source same carries _ =>
            rw [found] at same
            cases same
            simp [carries] at barred
        | behind same kind _ _ _ _ =>
            rw [found] at same
            cases same
            simp [Edge.carries, kind] at barred
      simp only [ih, List.mem_cons, exists_eq_or_imp, nothing, false_or]
  | case4 passed edge stack source found carries kind ih =>
      have carried : edge.carries source line = true := by simpa using carries
      simp only [ih, List.mem_cons, exists_eq_or_imp, Supplies.iff_of_source found kind, carried,
        true_and]
  | case5 passed edge stack reroute found carries kind closed ih =>
      have isReroute : reroute.kind = .reroute := by simpa using kind
      have nothing : ¬Supplies graph line passed edge node := by
        rw [Supplies.iff_of_reroute found isReroute]
        rintro ⟨claimed, fresh, _⟩
        exact closed.elim (fun other => other claimed) fresh
      simp only [ih, List.mem_cons, exists_eq_or_imp, nothing, false_or]
  | case6 passed edge stack reroute found carries kind opened ih =>
      have isReroute : reroute.kind = .reroute := by simpa using kind
      obtain ⟨otherwise, fresh⟩ := not_or.mp opened
      have claimed : reroute.claimed? = some line := Decidable.of_not_not otherwise
      rw [ih]
      constructor
      · rintro ⟨before, member, supplies⟩
        rcases List.mem_append.mp member with behind | later
        · exact ⟨edge, List.mem_cons_self,
            Supplies.behind found isReroute claimed fresh behind supplies.shrink⟩
        · exact ⟨before, List.mem_cons_of_mem edge later, supplies.shrink⟩
      · rintro ⟨first, member, supplies⟩
        -- the part of the line before its first visit of the reroute avoids it too
        rcases supplies.avoid edge.source with clear | ⟨before, behind, clear⟩
        · rcases List.mem_cons.mp member with same | later
          · subst first
            rw [Supplies.iff_of_reroute found isReroute] at clear
            exact absurd List.mem_cons_self clear.2.1
          · exact ⟨first, List.mem_append_right _ later, clear⟩
        · exact ⟨before, List.mem_append_left _ behind, clear⟩

/-! ### Supply chains -/

/-- A nonempty list of edges that brings a line from a node into a handle of another
node.  The nodes in between are reroutes claimed for the line, and the first edge
does not leave a task by the output that never carries the line. -/
inductive SupplyChain (graph : Graph) (line : LineKind) (handle : Handle) (target : Node) :
    Node → List Edge → Prop
  | direct {edge : Edge} {source : Node} :
      edge ∈ graph.edges → graph.node? edge.source = some source → edge.target = target.id →
        edge.targetHandle = some handle →
        (source.kind = .task → edge.sourceHandle ≠ some line.barredOutput) →
        SupplyChain graph line handle target source [edge]
  | through {edge : Edge} {edges : List Edge} {source reroute : Node} :
      edge ∈ graph.edges → graph.node? edge.source = some source →
        graph.node? edge.target = some reroute → reroute.kind = .reroute →
        reroute.claimed? = some line →
        (source.kind = .task → edge.sourceHandle ≠ some line.barredOutput) →
        SupplyChain graph line handle target reroute edges →
        SupplyChain graph line handle target source (edge :: edges)

variable {handle : Handle} {target : Node}

theorem SupplyChain.found {source : Node} {edges : List Edge}
    (chain : graph.SupplyChain line handle target source edges) :
    graph.node? source.id = some source := by
  cases chain with
  | direct _ found _ _ _ => exact node?_id found
  | through _ found _ _ _ _ _ => exact node?_id found

theorem mem_incoming_iff {edge : Edge} {id : NodeId} :
    edge ∈ graph.incoming id ↔ edge ∈ graph.edges ∧ edge.target = id := by
  simp [incoming]

theorem Supplies.chain {avoided : List NodeId} {edge : Edge} {node : Node}
    (supplies : Supplies graph line avoided edge node)
    (onward : ∀ source, graph.node? edge.source = some source →
      (source.kind = .task → edge.sourceHandle ≠ some line.barredOutput) →
      ∃ edges, graph.SupplyChain line handle target source edges) :
    ∃ edges, graph.SupplyChain line handle target node edges := by
  induction supplies with
  | source found carries _ => exact onward _ found (Edge.carries_iff.mp carries)
  | @behind edge before reroute node found kind claimed _ member _ ih =>
      have free : reroute.kind = .task → edge.sourceHandle ≠ some line.barredOutput := by
        intro task
        rw [kind] at task
        cases task
      obtain ⟨edges, rest⟩ := onward reroute found free
      obtain ⟨present, enters⟩ := mem_incoming_iff.mp member
      apply ih
      intro source leaves allowed
      exact ⟨before :: edges,
        SupplyChain.through present leaves (enters ▸ found) kind claimed allowed rest⟩

/-- Behind a reroute on a chain the walk comes to the reroute from its input. -/
theorem SupplyChain.behind {reroute : Node} {edges : List Edge}
    (chain : graph.SupplyChain line handle target reroute edges)
    (kind : reroute.kind = .reroute) (claimed : reroute.claimed? = some line) :
    ∃ last ∈ graph.incoming target.id, last.targetHandle = some handle ∧
      ∀ before ∈ graph.incoming reroute.id, ∀ node,
        Supplies graph line [] before node → Supplies graph line [] last node := by
  induction chain with
  | @direct edge source present found enters into _ =>
      refine ⟨edge, mem_incoming_iff.mpr ⟨present, enters⟩, into, ?_⟩
      intro before member node supplies
      rw [id_of_node? found] at member
      exact Supplies.behind found kind claimed List.not_mem_nil member supplies
  | @through edge edges source middle present found enters middleKind middleClaimed _ _ ih =>
      obtain ⟨last, member, into, onward⟩ := ih middleKind middleClaimed
      refine ⟨last, member, into, ?_⟩
      intro before behind node supplies
      rw [id_of_node? found] at behind
      apply onward edge (mem_incoming_iff.mpr ⟨present, (id_of_node? enters).symm⟩)
      exact Supplies.behind found kind claimed List.not_mem_nil behind supplies

theorem SupplyChain.supplies {source : Node} {edges : List Edge}
    (chain : graph.SupplyChain line handle target source edges) (kind : source.kind ≠ .reroute) :
    ∃ last ∈ graph.incoming target.id, last.targetHandle = some handle ∧
      Supplies graph line [] last source := by
  cases chain with
  | @direct edge _ present found enters into allowed =>
      exact ⟨edge, mem_incoming_iff.mpr ⟨present, enters⟩, into,
        Supplies.source found (Edge.carries_iff.mpr allowed) kind⟩
  | @through edge edges _ middle present found enters middleKind claimed allowed rest =>
      obtain ⟨last, member, into, onward⟩ := rest.behind middleKind claimed
      refine ⟨last, member, into, ?_⟩
      apply onward edge (mem_incoming_iff.mpr ⟨present, (id_of_node? enters).symm⟩)
      exact Supplies.source found (Edge.carries_iff.mpr allowed) kind

theorem Supplies.kind_ne {avoided : List NodeId} {edge : Edge} {node : Node}
    (supplies : Supplies graph line avoided edge node) : node.kind ≠ .reroute := by
  induction supplies with
  | source _ _ kind => exact kind
  | behind _ _ _ _ _ _ ih => exact ih

/-- The backward walk meets exactly the nodes that have a supply chain. -/
theorem mem_feedersInto_iff {node : Node} :
    node ∈ graph.feedersInto target.id handle line ↔
      node.kind ≠ .reroute ∧ ∃ edges, graph.SupplyChain line handle target node edges := by
  unfold feedersInto
  simp only [mem_feeders_iff, List.mem_filter, decide_eq_true_eq]
  constructor
  · rintro ⟨edge, ⟨member, into⟩, supplies⟩
    obtain ⟨present, enters⟩ := mem_incoming_iff.mp member
    refine ⟨supplies.kind_ne, supplies.chain ?_⟩
    intro source found allowed
    exact ⟨[edge], SupplyChain.direct present found enters into allowed⟩
  · rintro ⟨kind, edges, chain⟩
    obtain ⟨last, member, into, supplies⟩ := chain.supplies kind
    exact ⟨last, ⟨member, into⟩, supplies⟩

/-! ### Predecessors -/

def OneOfEach (nodes : List Node) : Prop :=
  ∀ left ∈ nodes, ∀ right ∈ nodes, left.id = right.id → left = right

theorem OneOfEach.tail {first : Node} {rest : List Node} (each : OneOfEach (first :: rest)) :
    OneOfEach rest :=
  fun left before right behind =>
    each left (List.mem_cons_of_mem first before) right (List.mem_cons_of_mem first behind)

theorem Supplies.found {avoided : List NodeId} {edge : Edge} {node : Node}
    (supplies : Supplies graph line avoided edge node) : graph.node? node.id = some node := by
  induction supplies with
  | source found _ _ => exact node?_id found
  | behind _ _ _ _ _ _ ih => exact ih

theorem oneOfEach_feedersInto (id : NodeId) (handle : Handle) (keep : Node → Bool) :
    OneOfEach ((graph.feedersInto id handle line).filter keep) := by
  have found : ∀ node ∈ (graph.feedersInto id handle line).filter keep,
      graph.node? node.id = some node := by
    intro node member
    obtain ⟨_, _, supplies⟩ := mem_feeders_iff.mp (List.mem_filter.mp member).1
    exact supplies.found
  intro left before right behind same
  have foundLeft := found left before
  rw [same, found right behind] at foundLeft
  exact (Option.some.inj foundLeft).symm

theorem mem_firstOfEach_iff {seen : List NodeId} {nodes : List Node} {node : Node}
    (each : OneOfEach nodes) :
    node ∈ firstOfEach seen nodes ↔ node ∈ nodes ∧ node.id ∉ seen := by
  induction nodes generalizing seen with
  | nil => simp [firstOfEach]
  | cons first rest ih =>
      unfold firstOfEach
      by_cases known : first.id ∈ seen
      · rw [if_pos known, ih each.tail, List.mem_cons]
        constructor
        · rintro ⟨member, fresh⟩
          exact ⟨Or.inr member, fresh⟩
        · rintro ⟨same | member, fresh⟩
          · subst node
            exact absurd known fresh
          · exact ⟨member, fresh⟩
      · rw [if_neg known, List.mem_cons, ih each.tail, List.mem_cons, List.mem_cons, not_or]
        constructor
        · rintro (same | ⟨member, _, fresh⟩)
          · subst node
            exact ⟨Or.inl rfl, known⟩
          · exact ⟨Or.inr member, fresh⟩
        · rintro ⟨same | member, fresh⟩
          · exact Or.inl same
          · by_cases same : first.id = node.id
            · exact Or.inl (each first List.mem_cons_self node
                (List.mem_cons_of_mem first member) same).symm
            · exact Or.inr ⟨member, fun equal => same equal.symm, fresh⟩

theorem mem_predecessors_iff {node : Node} :
    node ∈ graph.predecessors target.id ↔
      node.kind = .task ∧ node.id ≠ target.id ∧
        ∃ edges, graph.SupplyChain .execution .execIn target node edges := by
  unfold predecessors
  rw [mem_firstOfEach_iff (oneOfEach_feedersInto _ _ _)]
  simp only [List.mem_filter, mem_feedersInto_iff, decide_eq_true_eq, List.not_mem_nil,
    not_false_eq_true, and_true]
  constructor
  · rintro ⟨⟨_, chain⟩, kind, different⟩
    exact ⟨kind, different, chain⟩
  · rintro ⟨kind, different, chain⟩
    exact ⟨⟨by simp [kind], chain⟩, kind, different⟩

end Graph

end CrewCanvas
