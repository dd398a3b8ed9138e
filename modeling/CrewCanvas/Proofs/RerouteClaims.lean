/-
Claims of reroutes along a run of edits.

A claim is for good: a reroute that has made one keeps it until the reroute itself is
removed.  And no claim is missed: an edge into a reroute without a claim leaves a node
that feeds nothing through its handle, so neither the begin node nor an agent nor a
named output of a task.
-/

import CrewCanvas.Proofs.WellFormed

namespace CrewCanvas

/-! ### What a node feeds -/

namespace LineKind

def giver : LineKind → NodeKind
  | execution => .begin
  | agent => .agent

def output : LineKind → Handle
  | execution => .execOut
  | agent => .agentOut

end LineKind

namespace Node

variable {source target : Node}

theorem feeds_eq_none_iff {handle : Option Handle} :
    source.feeds handle = none ↔
      source.kind ≠ .begin ∧ source.kind ≠ .agent ∧
        (source.kind = .task → handle ≠ some .execOut ∧ handle ≠ some .agentOut) := by
  unfold feeds
  cases source.kind <;> rcases handle with _ | (_ | _ | _ | _) <;> simp

theorem feeds_eq_some_iff {handle : Option Handle} {line : LineKind} :
    source.feeds handle = some line ↔
      source.kind = line.giver ∨ (source.kind = .task ∧ handle = some line.output) := by
  unfold feeds
  cases line <;> cases source.kind <;> rcases handle with _ | (_ | _ | _ | _) <;>
    simp [LineKind.giver, LineKind.output]

theorem feeds_of_reroute (kind : source.kind = .reroute) (handle : Option Handle) :
    source.feeds handle = none := by
  rw [feeds_eq_none_iff]
  simp [kind]

theorem feeds_of_kind {later : Node} (same : later.kind = source.kind) (handle : Option Handle) :
    later.feeds handle = source.feeds handle := by
  unfold feeds
  rw [same]

theorem claim_of_judge {connection : Connection} (kind : target.kind = .reroute)
    (unclaimed : target.claimed? = none) :
    (source.judge target connection).claim = source.feeds connection.sourceHandle := by
  simp [judge, kind, unclaimed]

/-- A claim is for what the source feeds. -/
theorem feeds_of_claim {connection : Connection} {line : LineKind}
    (claim : (source.judge target connection).claim = some line) :
    source.feeds connection.sourceHandle = some line := by
  by_cases kind : target.kind = .reroute
  · cases claimed : target.claimed? with
    | none => exact (claim_of_judge kind claimed).symm.trans claim
    | some before => simp [judge, kind, claimed] at claim
  · unfold judge at claim
    simp only [if_neg kind] at claim
    generalize (if source.kind = .reroute then _ else _) = accepted at claim
    cases accepted with
    | false => cases claim
    | true => cases claim

end Node

namespace Graph

variable {graph next : Graph} {edit : Edit}

theorem node?_claim?_self (graph : Graph) (id : NodeId) (line : Option LineKind) :
    (graph.claim? id line).node? id =
      (graph.node? id).map (fun node => node.claimedFor line) := by
  cases line with
  | none => exact Option.map_id'.symm
  | some line => exact find?_updateFirst_self (by intro node; rfl) graph.nodes

theorem node?_claim?_other {id other : NodeId} (different : other ≠ id) (graph : Graph)
    (line : Option LineKind) : (graph.claim? id line).node? other = graph.node? other := by
  cases line with
  | none => rfl
  | some line => exact find?_updateFirst_other (by intro node; rfl) different graph.nodes

theorem node?_claim? {id : NodeId} {node : Node} (found : graph.node? id = some node)
    (line : Option LineKind) : (graph.claim? id line).node? id = some (node.claimedFor line) := by
  rw [node?_claim?_self, found, Option.map_some]

theorem feeds_of_splitClaim {source : Node} {handle : Option Handle}
    (unclaimed : splitClaim source handle = none) : source.feeds handle = none := by
  by_cases kind : source.kind = .reroute
  · exact Node.feeds_of_reroute kind handle
  · exact (if_neg kind).symm.trans unclaimed

/-! ### No claim is missed -/

/-- What leads into a reroute without a claim feeds nothing. -/
def NoClaimMissed (graph : Graph) : Prop :=
  ∀ edge ∈ graph.edges, ∀ source target, graph.node? edge.source = some source →
    graph.node? edge.target = some target → target.kind = .reroute → target.claimed? = none →
      source.feeds edge.sourceHandle = none

theorem Change.noClaimMissed (change : Change graph edit next) (ends : graph.EndsPresent)
    (settled : graph.NoClaimMissed) : next.NoClaimMissed := by
  intro edge member source target leaves enters kind unclaimed
  cases change.edgeOrigin member with
  | old old =>
      obtain ⟨before, after, left, entered, sourceGrows, targetGrows⟩ :=
        change.earlier_ends ends old member leaves enters
      rw [Node.feeds_of_kind sourceGrows.kind]
      exact settled edge old before after left entered (targetGrows.kind.symm.trans kind)
        (targetGrows.unclaimed unclaimed)
  | @added connection id line verdict same nodes =>
      subst edge
      obtain ⟨before, after, left, entered, _⟩ := accepts_iff.mp (accepts_of_verdict verdict)
      -- The target was claimed for what the source feeds before the edge was added.
      have sourceGrows : before.Grows source := (keeps_claim? _ nodes _).grows left leaves
      have claimedTarget : target = after.claimedFor (graph.judge connection).claim := by
        have found := node?_claim? entered (graph.judge connection).claim
        rw [← node?_of_nodes nodes] at found
        exact Option.some.inj (enters.symm.trans found)
      subst target
      have isReroute : after.kind = .reroute := by simpa using kind
      rw [Node.claimed?_claimedFor isReroute, Option.or_eq_none_iff,
        judge_of_found left entered] at unclaimed
      rw [Node.claim_of_judge isReroute unclaimed.1] at unclaimed
      rw [Node.feeds_of_kind sourceGrows.kind]
      exact unclaimed.2
  | head parts same =>
      subst edge
      have isReroute : target = parts.reroute :=
        Option.some.inj (enters.symm.trans parts.node?_reroute)
      have isSource : source = parts.source :=
        Option.some.inj (leaves.symm.trans (parts.node?_of_some parts.leaves))
      subst target source
      rw [parts.claimed, Option.or_eq_none_iff] at unclaimed
      exact feeds_of_splitClaim unclaimed.2
  | tail parts same =>
      subst edge
      have isReroute : source = parts.reroute :=
        Option.some.inj (leaves.symm.trans parts.node?_reroute)
      subst source
      exact Node.feeds_of_reroute parts.kind _

theorem noClaimMissed_run (edits : List Edit) : (empty.run edits).NoClaimMissed := by
  refine holds_run Change.noClaimMissed ?_ edits
  intro edge member
  cases member

/-! ### Claims stand -/

/-- A claimed reroute keeps its claim as long as it is there, and no edge into an
unclaimed one would have given it a claim. -/
theorem claims_stand_and_none_is_missed (edits : List Edit) :
    (∀ node ∈ (empty.run edits).nodes, ∀ line, node.claimed? = some line →
      ∀ later, Edit.removeNode node.id ∉ later →
        ∃ kept, (empty.run (edits ++ later)).node? node.id = some kept ∧
          kept.kind = .reroute ∧ kept.claimed? = some line) ∧
    ∀ edge ∈ (empty.run edits).edges, ∀ source target,
      (empty.run edits).node? edge.source = some source →
      (empty.run edits).node? edge.target = some target →
      target.kind = .reroute → target.claimed? = none →
        source.kind ≠ .begin ∧ source.kind ≠ .agent ∧
          (source.kind = .task →
            edge.sourceHandle ≠ some .execOut ∧ edge.sourceHandle ≠ some .agentOut) := by
  constructor
  · intro node member line claimed later stays
    have found := node?_of_mem (uniqueNodes_run edits) member
    obtain ⟨kept, foundKept, grows⟩ := keeps_run stays (empty.run edits) node found
    rw [run_append]
    exact ⟨kept, foundKept, grows.kind.trans (Node.kind_of_claimed? claimed),
      grows.claimed line claimed⟩
  · intro edge member source target leaves enters kind unclaimed
    rw [← Node.feeds_eq_none_iff]
    exact noClaimMissed_run edits edge member source target leaves enters kind unclaimed

def reroutesInRow : List Edit :=
  [.addNode (Node.plain .begin "s"), .addNode (Node.plain .reroute "r"),
    .addNode (Node.plain .reroute "q"), .addNode (Node.plain .task "t"),
    .addEdge ⟨"t", none, "q", none⟩ "e1", .addEdge ⟨"s", some .execOut, "r", none⟩ "e2",
    .addEdge ⟨"r", none, "q", none⟩ "e3", .splitEdge "e3" (Node.plain .reroute "p") "e4"]

def agentLinesAfter : List Edit :=
  [.addEdge ⟨"t", some .agentOut, "r", none⟩ "e5", .addEdge ⟨"t", some .agentOut, "q", none⟩ "e6",
    .updateNode "r" "claimedType" "agent", .removeNode "s"]

theorem reroutesInRow_claims :
    (empty.run reroutesInRow).nodes.map (fun node => (node.id, node.claimed?)) =
        [("s", none), ("r", some .execution), ("q", none), ("t", none), ("p", some .execution)] ∧
      Edit.removeNode "r" ∉ agentLinesAfter ∧
      (∃ kept, (empty.run (reroutesInRow ++ agentLinesAfter)).node? "r" = some kept ∧
        kept.kind = .reroute ∧ kept.claimed? = some .execution) ∧
      (∃ edge ∈ (empty.run reroutesInRow).edges, edge.source = "t" ∧ edge.target = "q" ∧
        edge.sourceHandle ≠ some .execOut ∧ edge.sourceHandle ≠ some .agentOut) := by
  have stays : Edit.removeNode "r" ∉ agentLinesAfter := by simp [agentLinesAfter]
  obtain ⟨stand, missed⟩ := claims_stand_and_none_is_missed reroutesInRow
  have ofTask := missed ⟨"e1", "t", none, "q", none, false⟩ (by decide) (Node.plain .task "t")
    (Node.plain .reroute "q") (by decide) (by decide) rfl rfl
  refine ⟨by decide, stays, ?_, _, ?_, rfl, rfl, ofTask.2.2 rfl⟩
  · exact stand { id := "r", data := .reroute (some .execution) } (by decide) .execution rfl
      agentLinesAfter stays
  · decide

end Graph

end CrewCanvas
