/-
Execution lines between tasks.

A line is drawn as execution by the handle that it enters, and followed by the handle that
it leaves.  The two agree on every edge between two tasks but one: an edge out of
`agent-out` into `exec-in` is drawn as execution and carries none.  The tasks at its ends
are then joined only if another chain of edges joins them.
-/

import CrewCanvas.Proofs.WalkAgreement
import CrewCanvas.Proofs.WellFormed

namespace CrewCanvas

/-! ### How a line is drawn -/

theorem LineKind.isExecution_ofExecution (isExecution : Bool) :
    (ofExecution isExecution).isExecution = isExecution := by
  cases isExecution <;> rfl

namespace Node

variable {source target : Node}

theorem lineTo_isExecution_iff (kind : source.kind ≠ .reroute) {handle : Option Handle} :
    (source.lineTo target handle).isExecution = true ↔ handle = some .execIn := by
  unfold lineTo
  simp [LineKind.isExecution_ofExecution, claimed?_eq_none kind]

theorem line_of_judge {connection : Connection} {line : LineKind}
    (verdict : (source.judge target connection).verdict = .accepted line) :
    line = source.lineTo target connection.targetHandle := by
  unfold judge at verdict
  split at verdict
  · exact (Verdict.accepted.inj verdict).symm
  · generalize (if source.kind = .reroute then _ else _) = accepted at verdict
    cases accepted with
    | false => cases verdict
    | true => exact (Verdict.accepted.inj verdict).symm

end Node

namespace Graph

variable {graph next : Graph} {edit : Edit}

/-- Between nodes that are no reroutes, execution is drawn into the execution input. -/
def DrawnByInput (graph : Graph) : Prop :=
  ∀ edge ∈ graph.edges, ∀ source target, graph.node? edge.source = some source →
    graph.node? edge.target = some target → source.kind ≠ .reroute → target.kind ≠ .reroute →
      (edge.isExecutionLine = true ↔ edge.targetHandle = some .execIn)

theorem Change.drawnByInput (change : Change graph edit next) (ends : graph.EndsPresent)
    (drawn : graph.DrawnByInput) : next.DrawnByInput := by
  intro edge member source target leaves enters sourceKind targetKind
  cases change.edgeOrigin member with
  | old old =>
      obtain ⟨before, after, left, entered, sourceGrows, targetGrows⟩ :=
        change.earlier_ends ends old member leaves enters
      rw [sourceGrows.kind] at sourceKind
      rw [targetGrows.kind] at targetKind
      exact drawn edge old before after left entered sourceKind targetKind
  | @added connection id line verdict same nodes =>
      subst edge
      obtain ⟨before, after, left, entered, _⟩ := accepts_iff.mp (accepts_of_verdict verdict)
      have sourceGrows : before.Grows source := (keeps_claim? _ nodes _).grows left leaves
      rw [sourceGrows.kind] at sourceKind
      rw [judge_of_found left entered] at verdict
      rw [Edge.ofConnection, Node.line_of_judge verdict]
      exact Node.lineTo_isExecution_iff sourceKind
  | head parts same =>
      subst edge
      cases parts.node?_reroute.symm.trans enters
      exact absurd parts.kind targetKind
  | tail parts same =>
      subst edge
      cases parts.node?_reroute.symm.trans leaves
      exact absurd parts.kind sourceKind

theorem drawnByInput_run (edits : List Edit) : (empty.run edits).DrawnByInput := by
  refine holds_run Change.drawnByInput ?_ edits
  intro edge member
  cases member

/-! ### Which lines are followed -/

structure ExecutionLine (graph : Graph) (edge : Edge) (before task : Node) : Prop where
  present : edge ∈ graph.edges
  drawn : edge.isExecutionLine = true
  leaves : graph.node? edge.source = some before
  enters : graph.node? edge.target = some task
  beforeKind : before.kind = .task
  taskKind : task.kind = .task
  apart : before.id ≠ task.id

/-- Control flow leads from a task to another one, for both walks. -/
structure CompiledAsFlow (graph : Graph) (before task : Node) : Prop where
  predecessor : before ∈ graph.predecessors task.id
  reached : before.id ∈ graph.reached → task.id ∈ graph.reached

theorem compiledAsFlow_iff (unique : graph.UniqueNodes) {before task : Node}
    (beforeKind : before.kind = .task) (member : task ∈ graph.tasks)
    (apart : before.id ≠ task.id) :
    graph.CompiledAsFlow before task ↔
      ∃ chain, graph.SupplyChain .execution .execIn task before chain := by
  constructor
  · intro compiled
    exact (mem_predecessors_iff.mp compiled.predecessor).2.2
  · intro joined
    have predecessor := mem_predecessors_iff.mpr ⟨beforeKind, apart, joined⟩
    exact ⟨predecessor, reached_of_predecessor unique member predecessor⟩

theorem SupplyChain.not_barred {line : LineKind} {handle : Handle} {source target : Node}
    {chain : List Edge} (supply : graph.SupplyChain line handle target source chain) {edge : Edge}
    (member : edge ∈ chain) {node : Node} (leaves : graph.node? edge.source = some node)
    (task : node.kind = .task) : edge.sourceHandle ≠ some line.barredOutput := by
  induction supply with
  | direct _ found _ _ allowed =>
      cases List.mem_singleton.mp member
      cases found.symm.trans leaves
      exact allowed task
  | through _ found _ _ _ allowed _ ih =>
      rcases List.mem_cons.mp member with same | later
      · cases same
        cases found.symm.trans leaves
        exact allowed task
      · exact ih later

/-- An execution line between tasks is control flow, unless it leaves through `agent-out`
and no other chain of edges joins the two. -/
theorem executionLine_compiled_iff (edits : List Edit) {edge : Edge} {before task : Node}
    (line : (empty.run edits).ExecutionLine edge before task) :
    (empty.run edits).CompiledAsFlow before task ↔
      edge.sourceHandle ≠ some .agentOut ∨
        ∃ chain, edge ∉ chain ∧
          (empty.run edits).SupplyChain .execution .execIn task before chain := by
  have member := mem_tasks_iff.mpr ⟨mem_of_node? line.enters, line.taskKind⟩
  rw [compiledAsFlow_iff (uniqueNodes_run edits) line.beforeKind member line.apart]
  have into : edge.targetHandle = some .execIn := by
    refine (drawnByInput_run edits edge line.present before task line.leaves line.enters ?_ ?_).mp
      line.drawn
    · simp [line.beforeKind]
    · simp [line.taskKind]
  constructor
  · rintro ⟨chain, supply⟩
    by_cases out : edge.sourceHandle = some .agentOut
    · -- No edge of a chain leaves a task through `agent-out`, so this one is not among them.
      refine Or.inr ⟨chain, ?_, supply⟩
      intro inChain
      exact supply.not_barred inChain line.leaves line.beforeKind out
    · exact Or.inl out
  · rintro (other | ⟨chain, _, supply⟩)
    · exact ⟨[edge], SupplyChain.direct line.present line.leaves (id_of_node? line.enters).symm into
        (fun _ => other)⟩
    · exact ⟨chain, supply⟩

def agentOutputLine : List Edit :=
  [.addNode (Node.plain .begin "s"), .addNode (Node.plain .task "a"),
    .addNode (Node.plain .task "c"), .addNode (Node.plain .task "b"),
    .addEdge ⟨"s", some .execOut, "a", some .execIn⟩ "e1",
    .addEdge ⟨"a", some .agentOut, "b", some .execIn⟩ "e2"]

theorem agentOutputLine_not_compiled :
    (empty.run agentOutputLine).ExecutionLine ⟨"e2", "a", some .agentOut, "b", some .execIn, true⟩
        (Node.plain .task "a") (Node.plain .task "b") ∧
      Node.plain .task "a" ∉ (empty.run agentOutputLine).predecessors "b" ∧
      "a" ∈ (empty.run agentOutputLine).reached ∧ "b" ∉ (empty.run agentOutputLine).reached := by
  have predecessors : (empty.run agentOutputLine).predecessors "b" = [] := by cbv
  have reached : (empty.run agentOutputLine).reached = ["a"] := by cbv
  rw [predecessors, reached]
  exact ⟨by constructor <;> decide, by simp, by simp, by decide⟩

def twoLines : List Edit :=
  agentOutputLine ++ [.addEdge ⟨"a", none, "b", some .execIn⟩ "e3"]

theorem twoLines_compiled :
    (empty.run twoLines).ExecutionLine ⟨"e2", "a", some .agentOut, "b", some .execIn, true⟩
        (Node.plain .task "a") (Node.plain .task "b") ∧
      (empty.run twoLines).CompiledAsFlow (Node.plain .task "a") (Node.plain .task "b") := by
  have line : (empty.run twoLines).ExecutionLine
      ⟨"e2", "a", some .agentOut, "b", some .execIn, true⟩ (Node.plain .task "a")
      (Node.plain .task "b") := by
    constructor <;> decide
  refine ⟨line, (executionLine_compiled_iff twoLines line).mpr (Or.inr ?_)⟩
  refine ⟨[⟨"e3", "a", none, "b", some .execIn, true⟩], by decide, ?_⟩
  exact SupplyChain.direct (by decide) (by decide) rfl rfl (by decide)

end Graph

end CrewCanvas
