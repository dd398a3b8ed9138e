/-
Edges and the inputs that they enter.

A task has two inputs and a reroute takes every line; the begin node and an agent have
no input.  The rule for an edge out of a reroute asks for its claim and for the handle,
but not for the kind of the node behind the handle.  That is the only way in which an
edge comes to enter a node without the input.
-/

import CrewCanvas.Proofs.WellFormed

namespace CrewCanvas

def Node.HasInput (node : Node) (handle : Option Handle) : Prop :=
  node.kind = .reroute ∨ (node.kind = .task ∧ (handle = some .execIn ∨ handle = some .agent))

namespace Node

variable {source target : Node} {handle : Option Handle}

instance (node : Node) (handle : Option Handle) : Decidable (node.HasInput handle) :=
  inferInstanceAs (Decidable (_ ∨ _))

theorem Grows.hasInput_iff {later : Node} (grows : target.Grows later) :
    later.HasInput handle ↔ target.HasInput handle := by
  unfold HasInput
  rw [grows.kind]

theorem input_of_reroutesTo (fits : source.reroutesTo handle = true) :
    handle = some .execIn ∨ handle = some .agent := by
  obtain ⟨line, _, enters⟩ := reroutesTo_iff.mp fits
  cases line with
  | execution => exact Or.inl enters
  | agent => exact Or.inr enters

/-- An edge that the rules accept enters an input, unless it leads from a reroute to a
node without one. -/
theorem hasInput_iff_of_accepted {connection : Connection}
    (accepted : (source.judge target connection).verdict.isAccepted = true) :
    target.HasInput connection.targetHandle ↔
      (source.kind = .reroute → target.kind = .task ∨ target.kind = .reroute) := by
  unfold HasInput
  rcases judge_isAccepted_iff.mp accepted with into | ⟨kind, fits⟩ | ⟨kind, joined⟩
  · simp [into]
  · have input := input_of_reroutesTo fits
    simp [kind, input, or_comm]
  · obtain ⟨task, ⟨_, enters⟩ | ⟨_, enters⟩⟩ := joins_iff.mp joined
    · simp [kind, task, enters]
    · simp [kind, task, enters]

end Node

namespace Graph

variable {graph next : Graph} {edit : Edit}

def EntersInputs (graph : Graph) : Prop :=
  ∀ edge ∈ graph.edges, ∃ target ∈ graph.node? edge.target, target.HasInput edge.targetHandle

instance (graph : Graph) : Decidable graph.EntersInputs :=
  inferInstanceAs (Decidable (∀ edge ∈ graph.edges, ∃ target ∈ graph.node? edge.target, _))

end Graph

/-- If an added edge is accepted and leaves a reroute, it leads to a task or a reroute. -/
def Edit.EntersInput (edit : Edit) (graph : Graph) : Prop :=
  match edit with
  | addEdge connection _ => graph.Accepts connection →
      ∀ source target, graph.node? connection.source = some source →
        graph.node? connection.target = some target → source.kind = .reroute →
          target.kind = .task ∨ target.kind = .reroute
  | _ => True

namespace Graph

theorem entersInput_iff_of_accepted {connection : Connection} {id : EdgeId}
    {source target : Node} (leaves : graph.node? connection.source = some source)
    (enters : graph.node? connection.target = some target)
    (accepted : (source.judge target connection).verdict.isAccepted = true) :
    (Edit.addEdge connection id).EntersInput graph ↔
      target.HasInput connection.targetHandle := by
  rw [Node.hasInput_iff_of_accepted accepted]
  constructor
  · intro fits
    exact fits ((accepts_of_found_iff leaves enters).mpr accepted) source target leaves enters
  · intro fits _ first second foundFirst foundSecond
    cases foundFirst.symm.trans leaves
    cases foundSecond.symm.trans enters
    exact fits

/-! ### One edit -/

/-- An edge that an edit leaves still enters an input. -/
theorem Change.enters_of_old (change : Change graph edit next) (inputs : graph.EntersInputs)
    {edge : Edge} (old : edge ∈ graph.edges) (kept : edge ∈ next.edges) :
    ∃ target ∈ next.node? edge.target, target.HasInput edge.targetHandle := by
  obtain ⟨target, found, input⟩ := inputs edge old
  obtain ⟨later, foundLater, grows⟩ := (change.keeps_ends kept).2 target found
  exact ⟨later, foundLater, grows.hasInput_iff.mpr input⟩

theorem Change.entersInputs_of_fits (change : Change graph edit next)
    (inputs : graph.EntersInputs) (fits : edit.EntersInput graph) : next.EntersInputs := by
  intro edge member
  cases change.edgeOrigin member with
  | old old => exact change.enters_of_old inputs old member
  | @added connection id line verdict same nodes =>
      subst edge
      obtain ⟨source, target, leaves, enters, accepted⟩ :=
        accepts_iff.mp (accepts_of_verdict verdict)
      obtain ⟨later, foundLater, grows⟩ := keeps_claim? _ nodes _ target enters
      have input := (entersInput_iff_of_accepted leaves enters accepted).mp fits
      exact ⟨later, foundLater, grows.hasInput_iff.mpr input⟩
  | head parts same =>
      subst edge
      exact ⟨parts.reroute, parts.node?_reroute, Or.inl parts.kind⟩
  | tail parts same =>
      subst edge
      obtain ⟨target, found, input⟩ := inputs parts.edge parts.edge_mem
      exact ⟨target, parts.node?_of_some found, input⟩

theorem Change.fits_of_entersInputs (change : Change graph edit next)
    (inputs : next.EntersInputs) : edit.EntersInput graph := by
  cases change with
  | edgeRejected rejected =>
      intro accepted
      unfold Accepts validate at accepted
      rw [rejected] at accepted
      cases accepted
  | @edgeAdded connection id line verdict =>
      obtain ⟨source, target, leaves, enters, accepted⟩ :=
        accepts_iff.mp (accepts_of_verdict verdict)
      rw [entersInput_iff_of_accepted leaves enters accepted]
      obtain ⟨later, foundLater, input⟩ :=
        inputs (Edge.ofConnection id connection line) (List.mem_append_right _ List.mem_cons_self)
      -- The added edge may have claimed its target, which keeps the kind of the target.
      have grows : target.Grows later := (keeps_claim? _ rfl _).grows enters foundLater
      exact grows.hasInput_iff.mp input
  | refused refusal =>
      cases edit with
      | addEdge connection id => cases refusal
      | _ => trivial
  | _ => trivial

/-! ### Runs of edits -/

/-- Every edge of every graph along a run enters an input exactly if no accepted edge of
the run leads from a reroute to the begin node or to an agent. -/
theorem entersInputs_along_run_iff (edits : List Edit) :
    (∀ earlier, earlier <+: edits → (empty.run earlier).EntersInputs) ↔
      ∀ earlier edit, earlier ++ [edit] <+: edits → edit.EntersInput (empty.run earlier) := by
  refine along_run_iff ?_ ?_ edits
  · intro graph next edit change inputs
    exact ⟨change.fits_of_entersInputs, change.entersInputs_of_fits inputs⟩
  · intro edge member
    cases member

def rerouteToAgent : List Edit :=
  [.addNode (Node.plain .begin "s"), .addNode (Node.plain .reroute "r"),
    .addNode (Node.plain .agent "w"), .addEdge ⟨"s", some .execOut, "r", none⟩ "e1",
    .addEdge ⟨"r", none, "w", some .execIn⟩ "e2"]

theorem rerouteToAgent_not_entersInputs : ¬(empty.run rerouteToAgent).EntersInputs := by
  decide

end Graph

end CrewCanvas
