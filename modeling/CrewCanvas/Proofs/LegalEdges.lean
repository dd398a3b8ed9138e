/-
Legal edges along a run of edits.

An edge is legal if it would be accepted again.  Every edit but a split keeps all
edges legal.  A split adds an edge out of its reroute that no rule is asked about:
that edge is legal exactly if the reroute is claimed for the input it leads to.
-/

import CrewCanvas.Proofs.EditRun

namespace CrewCanvas

def LineKind.input : LineKind → Handle
  | execution => .execIn
  | agent => .agent

/-! ### What the rules accept -/

namespace Node

variable {source target : Node}

theorem reroutesTo_iff {handle : Option Handle} :
    source.reroutesTo handle = true ↔
      ∃ line, source.claimed? = some line ∧ handle = some line.input := by
  unfold reroutesTo
  cases source.claimed? with
  | none => simp
  | some line => cases line <;> simp [LineKind.input]

theorem joins_iff {handle : Option Handle} :
    source.joins target handle = true ↔
      target.kind = .task ∧ ((source.kind = .agent ∧ handle = some .agent) ∨
        ((source.kind = .task ∨ source.kind = .begin) ∧ handle = some .execIn)) := by
  unfold joins
  cases source.kind <;> cases target.kind <;> rcases handle with _ | (_ | _ | _ | _) <;> simp

theorem judge_isAccepted_iff {connection : Connection} :
    (source.judge target connection).verdict.isAccepted = true ↔
      target.kind = .reroute ∨
        (source.kind = .reroute ∧ source.reroutesTo connection.targetHandle = true) ∨
        (source.kind ≠ .reroute ∧ source.joins target connection.targetHandle = true) := by
  unfold judge
  by_cases into : target.kind = .reroute
  · simp [into, Verdict.isAccepted]
  · by_cases leaves : source.kind = .reroute
    · cases source.reroutesTo connection.targetHandle <;>
        simp [into, leaves, Decision.reject, Verdict.isAccepted]
    · cases source.joins target connection.targetHandle <;>
        simp [into, leaves, Decision.reject, Verdict.isAccepted]

/-- The rules still accept an edge between later states of its ends. -/
theorem Grows.judge {source' target' : Node} (sourceGrows : source.Grows source')
    (targetGrows : target.Grows target') {connection : Connection}
    (accepted : (source.judge target connection).verdict.isAccepted = true) :
    (source'.judge target' connection).verdict.isAccepted = true := by
  rw [judge_isAccepted_iff, joins_iff] at accepted ⊢
  rw [sourceGrows.kind, targetGrows.kind]
  rcases accepted with into | ⟨kind, fits⟩ | joined
  · exact Or.inl into
  · obtain ⟨line, claimed, enters⟩ := reroutesTo_iff.mp fits
    have later := reroutesTo_iff.mpr ⟨line, sourceGrows.claimed line claimed, enters⟩
    exact Or.inr (Or.inl ⟨kind, later⟩)
  · exact Or.inr (Or.inr joined)

end Node

namespace Graph

def Accepts (graph : Graph) (connection : Connection) : Prop :=
  (graph.validate connection).isAccepted = true

instance (graph : Graph) (connection : Connection) : Decidable (graph.Accepts connection) :=
  inferInstanceAs (Decidable (_ = true))

variable {graph next : Graph}

theorem judge_of_found {connection : Connection} {source target : Node}
    (leaves : graph.node? connection.source = some source)
    (enters : graph.node? connection.target = some target) :
    graph.judge connection = source.judge target connection := by
  unfold judge
  rw [leaves, enters]

theorem accepts_of_found_iff {connection : Connection} {source target : Node}
    (leaves : graph.node? connection.source = some source)
    (enters : graph.node? connection.target = some target) :
    graph.Accepts connection ↔ (source.judge target connection).verdict.isAccepted = true := by
  unfold Accepts validate
  rw [judge_of_found leaves enters]

theorem accepts_iff {connection : Connection} :
    graph.Accepts connection ↔
      ∃ source target, graph.node? connection.source = some source ∧
        graph.node? connection.target = some target ∧
        (source.judge target connection).verdict.isAccepted = true := by
  constructor
  · intro accepted
    cases leaves : graph.node? connection.source with
    | none => simp [Accepts, validate, judge, leaves, Decision.reject, Verdict.isAccepted] at accepted
    | some source =>
        cases enters : graph.node? connection.target with
        | none =>
            simp [Accepts, validate, judge, enters, Decision.reject, Verdict.isAccepted] at accepted
        | some target =>
            exact ⟨source, target, rfl, rfl, (accepts_of_found_iff leaves enters).mp accepted⟩
  · rintro ⟨source, target, leaves, enters, fits⟩
    exact (accepts_of_found_iff leaves enters).mpr fits

theorem accepts_of_verdict {connection : Connection} {line : LineKind}
    (verdict : (graph.judge connection).verdict = .accepted line) : graph.Accepts connection := by
  unfold Accepts validate
  rw [verdict]
  rfl

theorem Accepts.later {connection : Connection} (accepted : graph.Accepts connection)
    (source : graph.Keeps next connection.source) (target : graph.Keeps next connection.target) :
    next.Accepts connection := by
  obtain ⟨first, second, leaves, enters, fits⟩ := accepts_iff.mp accepted
  obtain ⟨later, foundLater, grows⟩ := source first leaves
  obtain ⟨later', foundLater', grows'⟩ := target second enters
  exact accepts_iff.mpr ⟨later, later', foundLater, foundLater', grows.judge grows' fits⟩

def EdgesLegal (graph : Graph) : Prop :=
  ∀ edge ∈ graph.edges, graph.Accepts edge.connection

instance (graph : Graph) : Decidable graph.EdgesLegal :=
  inferInstanceAs (Decidable (∀ edge ∈ graph.edges, _))

/-! ### Splits -/

/-- The reroute put into an edge is claimed for the input that the edge enters.  A
reroute that comes without a claim takes the right one from the edge, unless the edge
leaves a task by another output than `exec-out`. -/
def SplitFits (graph : Graph) (edge : Edge) (given : Node) : Prop :=
  ∀ source target, graph.node? edge.source = some source →
    graph.node? edge.target = some target → target.kind ≠ .reroute →
      match given.claimed? with
      | some line => edge.targetHandle = some line.input
      | none => source.kind = .task → edge.sourceHandle = some .execOut

theorem splitFits_of_found_iff {edge : Edge} {given source target : Node}
    (leaves : graph.node? edge.source = some source)
    (enters : graph.node? edge.target = some target) :
    graph.SplitFits edge given ↔ (target.kind ≠ .reroute →
      match given.claimed? with
      | some line => edge.targetHandle = some line.input
      | none => source.kind = .task → edge.sourceHandle = some .execOut) := by
  constructor
  · intro fits
    exact fits source target leaves enters
  · intro fits first second foundFirst foundSecond
    have atSource : first = source := Option.some.inj (foundFirst.symm.trans leaves)
    have atTarget : second = target := Option.some.inj (foundSecond.symm.trans enters)
    subst first second
    exact fits

theorem splitClaim_input_iff {source target : Node} {edge : Edge}
    (accepted : (source.judge target edge.connection).verdict.isAccepted = true)
    (input : target.kind ≠ .reroute) :
    (∃ line, splitClaim source edge.sourceHandle = some line ∧
        edge.targetHandle = some line.input) ↔
      (source.kind = .task → edge.sourceHandle = some .execOut) := by
  rcases Node.judge_isAccepted_iff.mp accepted with into | ⟨kind, fits⟩ | ⟨kind, joined⟩
  · exact absurd into input
  · obtain ⟨line, claimed, enters⟩ := Node.reroutesTo_iff.mp fits
    constructor
    · intro _ task
      rw [kind] at task
      cases task
    · intro _
      exact ⟨line, (splitClaim_reroute kind).trans claimed, enters⟩
  · have claims : splitClaim source edge.sourceHandle = source.feeds edge.sourceHandle := if_neg kind
    rw [claims]
    obtain ⟨_, ⟨agent, enters⟩ | ⟨task | begins, enters⟩⟩ := Node.joins_iff.mp joined
    · have feeds : source.feeds edge.sourceHandle = some .agent := by simp [Node.feeds, agent]
      have enters : edge.targetHandle = some .agent := enters
      simp [feeds, enters, agent, LineKind.input]
    · have enters : edge.targetHandle = some .execIn := enters
      have feeds : source.feeds edge.sourceHandle = some .execution ↔
          edge.sourceHandle = some .execOut := by
        unfold Node.feeds
        rcases edge.sourceHandle with _ | (_ | _ | _ | _) <;> simp [task]
      constructor
      · rintro ⟨line, claimed, input⟩ _
        rw [enters] at input
        cases line with
        | execution => exact feeds.mp claimed
        | agent => cases input
      · intro out
        exact ⟨.execution, feeds.mpr (out task), enters⟩
    · have feeds : source.feeds edge.sourceHandle = some .execution := by
        simp [Node.feeds, begins]
      have enters : edge.targetHandle = some .execIn := enters
      simp [feeds, enters, begins, LineKind.input]

namespace Subdivision

variable {given : Node}

theorem keeps (parts : Subdivision graph next given) (id : NodeId) : graph.Keeps next id :=
  keeps_of_same (fun _ _ found => parts.node?_of_some found) id

theorem accepts_head (parts : Subdivision graph next given) :
    next.Accepts (parts.edge.head parts.reroute.id).connection := by
  refine accepts_iff.mpr ⟨parts.source, parts.reroute, parts.node?_of_some parts.leaves,
    parts.node?_reroute, ?_⟩
  exact Node.judge_isAccepted_iff.mpr (Or.inl parts.kind)

theorem accepts_tail_of_found_iff (parts : Subdivision graph next given) {target : Node}
    (enters : graph.node? parts.edge.target = some target) :
    next.Accepts (parts.edge.tail parts.reroute.id parts.tailId).connection ↔
      target.kind = .reroute ∨ parts.reroute.reroutesTo parts.edge.targetHandle = true := by
  have toTarget : next.node? parts.edge.target = some target := parts.node?_of_some enters
  rw [accepts_of_found_iff parts.node?_reroute toTarget, Node.judge_isAccepted_iff]
  simp only [parts.kind, ne_eq, not_true_eq_false, true_and, false_and, or_false]
  rfl

/-- No rule is asked about the second half of a split edge; this is when it would pass. -/
theorem accepts_tail_iff (parts : Subdivision graph next given)
    (legal : graph.Accepts parts.edge.connection) :
    next.Accepts (parts.edge.tail parts.reroute.id parts.tailId).connection ↔
      graph.SplitFits parts.edge given := by
  obtain ⟨source, target, leaves, enters, accepted⟩ := accepts_iff.mp legal
  have sameSource : parts.source = source := Option.some.inj (parts.leaves.symm.trans leaves)
  rw [parts.accepts_tail_of_found_iff enters, splitFits_of_found_iff leaves enters,
    Node.reroutesTo_iff, parts.claimed, sameSource]
  by_cases into : target.kind = .reroute
  · simp [into]
  · rw [or_iff_right into, imp_iff_right into]
    cases given.claimed? with
    | some line => simp
    | none => exact splitClaim_input_iff accepted into

theorem edgesLegal_iff (parts : Subdivision graph next given) (legal : graph.EdgesLegal) :
    next.EdgesLegal ↔ graph.SplitFits parts.edge given := by
  have tail := parts.accepts_tail_iff (legal parts.edge parts.edge_mem)
  constructor
  · intro legalNext
    refine tail.mp (legalNext _ ?_)
    rw [parts.nextEdges]
    simp
  · intro fits edge member
    rcases parts.mem_nextEdges member with old | isHead | isTail
    · exact (legal edge old).later (parts.keeps _) (parts.keeps _)
    · subst edge
      exact parts.accepts_head
    · subst edge
      exact tail.mpr fits

end Subdivision

end Graph

/-- An edit that is no split fits; a split does if its reroute fits or it is refused. -/
def Edit.Fits (edit : Edit) (graph : Graph) : Prop :=
  match edit with
  | splitEdge id given tailId => ∀ next, graph.splitEdge id given tailId = .ok next →
      ∀ edge, graph.edge? id = some edge → graph.SplitFits edge given
  | _ => True

namespace Graph

variable {graph next : Graph} {edit : Edit}

/-! ### One edit -/

/-- An edge that an edit leaves keeps both its ends. -/
theorem Change.keeps_ends (change : Change graph edit next) {edge : Edge}
    (kept : edge ∈ next.edges) :
    graph.Keeps next edge.source ∧ graph.Keeps next edge.target := by
  by_cases removes : ∃ id, edit = .removeNode id
  · obtain ⟨removed, same⟩ := removes
    subst edit
    cases change with
    | refused _ => exact ⟨keeps_of_nodes rfl _, keeps_of_nodes rfl _⟩
    | nodeRemoved found =>
        have untouched := (List.mem_filter.mp kept).2
        simp only [Edge.touches, Bool.not_or, Bool.and_eq_true, Bool.not_eq_true',
          beq_eq_false_iff_ne] at untouched
        refine ⟨(Change.nodeRemoved found).keeps ?_, (Change.nodeRemoved found).keeps ?_⟩
        · intro same
          exact untouched.1 (Edit.removeNode.inj same).symm
        · intro same
          exact untouched.2 (Edit.removeNode.inj same).symm
  · refine ⟨change.keeps ?_, change.keeps ?_⟩
    · intro same
      exact removes ⟨_, same⟩
    · intro same
      exact removes ⟨_, same⟩

theorem Change.edgesLegal_of_old (change : Change graph edit next) (legal : graph.EdgesLegal)
    (old : ∀ edge ∈ next.edges, edge ∈ graph.edges) : next.EdgesLegal := by
  intro edge member
  obtain ⟨source, target⟩ := change.keeps_ends member
  exact (legal edge (old edge member)).later source target

/-- An edit of a legal graph makes a legal graph exactly if it fits. -/
theorem Change.edgesLegal_iff (change : Change graph edit next) (legal : graph.EdgesLegal) :
    next.EdgesLegal ↔ edit.Fits graph := by
  cases change with
  | refused error =>
      refine ⟨fun _ => ?_, fun _ => legal⟩
      cases edit with
      | splitEdge id given tailId =>
          intro next made
          cases error.symm.trans made
      | _ => trivial
  | nodeAdded fresh begins =>
      have stays := (Change.nodeAdded fresh begins).edgesLegal_of_old legal (fun _ member => member)
      exact iff_of_true stays trivial
  | edgeRejected _ => exact iff_of_true legal trivial
  | @edgeAdded connection id line verdict =>
      refine iff_of_true ?_ trivial
      have change : Change graph (.addEdge connection id) _ := Change.edgeAdded verdict
      intro edge member
      obtain ⟨source, target⟩ := change.keeps_ends member
      have accepted : graph.Accepts edge.connection := by
        rcases List.mem_append.mp member with old | added
        · exact legal edge old
        · rw [List.mem_singleton.mp added]
          exact accepts_of_verdict verdict
      exact accepted.later source target
  | nodeRemoved found =>
      have stays := (Change.nodeRemoved found).edgesLegal_of_old legal
        (fun _ member => (List.mem_filter.mp member).1)
      exact iff_of_true stays trivial
  | edgeRemoved found =>
      have stays := (Change.edgeRemoved found).edgesLegal_of_old legal
        (fun _ member => (List.mem_filter.mp member).1)
      exact iff_of_true stays trivial
  | nodeUpdated found set =>
      have stays := (Change.nodeUpdated found set).edgesLegal_of_old legal (fun _ member => member)
      exact iff_of_true stays trivial
  | edgeSplit parts made found =>
      rw [parts.edgesLegal_iff legal]
      constructor
      · intro fits _ _ edge same
        rw [found] at same
        cases same
        exact fits
      · intro fits
        exact fits _ made parts.edge found

/-! ### Runs of edits -/

/-- Every graph that a run of edits makes is legal exactly if every edit of it fits. -/
theorem edgesLegal_along_run_iff (edits : List Edit) :
    (∀ earlier, earlier <+: edits → (empty.run earlier).EdgesLegal) ↔
      ∀ earlier edit, earlier ++ [edit] <+: edits → edit.Fits (empty.run earlier) := by
  refine along_run_iff Change.edgesLegal_iff ?_ edits
  intro edge member
  cases member

def agentOutputSplit : List Edit :=
  [.addNode (Node.plain .task "a"), .addNode (Node.plain .task "b"),
    .addEdge ⟨"a", some .agentOut, "b", some .execIn⟩ "e1",
    .splitEdge "e1" (Node.plain .reroute "r") "e2"]

theorem agentOutputSplit_not_edgesLegal : ¬(empty.run agentOutputSplit).EdgesLegal := by
  decide

end Graph

end CrewCanvas
