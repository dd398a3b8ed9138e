/-
Edge ids along runs.

An edge is looked up, removed and split by its id, and a record in which an id stands twice
is not read.  A split refuses an id that is taken, but an accepted connection is added under
whatever id it comes with.  That is the only way in which two edges come to share an id.
-/

import CrewCanvas.Proofs.RecordRoundTrip
import Mathlib.Tactic.TFAE

namespace CrewCanvas

/-- An accepted connection is added under an id that no edge has. -/
def Edit.EdgeIdIsNew (edit : Edit) (graph : Graph) : Prop :=
  match edit with
  | addEdge connection id => graph.Accepts connection → id ∉ graph.edgeIds
  | _ => True

theorem Edit.newEdgeIsFresh_of_none {edit : Edit} (graph : Graph) (noEdge : edit.newEdge? = none) :
    edit.NewEdgeIsFresh graph := by
  intro id new
  rw [noEdge] at new
  cases new

namespace Graph

variable {graph next : Graph} {edit : Edit}

/-! ### One edit -/

theorem not_accepts_of_rejected {connection : Connection}
    (rejected : (graph.judge connection).verdict = .rejected) : ¬graph.Accepts connection := by
  unfold Accepts validate
  rw [rejected]
  exact Bool.false_ne_true

/-- An edit keeps the ids of the edges apart exactly if it adds no edge under an old id. -/
theorem Change.uniqueEdges_iff (change : Change graph edit next) (unique : graph.UniqueEdges) :
    next.UniqueEdges ↔ edit.EdgeIdIsNew graph := by
  have kept (fresh : edit.NewEdgeIsFresh graph) (new : edit.EdgeIdIsNew graph) :
      next.UniqueEdges ↔ edit.EdgeIdIsNew graph :=
    iff_of_true (change.uniqueEdges unique fresh) new
  cases change with
  | refused refusal =>
      refine iff_of_true unique ?_
      cases edit with
      | addEdge connection id => cases refusal
      | _ => trivial
  | nodeAdded _ _ => exact kept (Edit.newEdgeIsFresh_of_none graph rfl) trivial
  | edgeRejected rejected =>
      exact iff_of_true unique
        (fun accepted => absurd accepted (not_accepts_of_rejected rejected))
  | @edgeAdded connection id line verdict =>
      have accepted := accepts_of_verdict verdict
      have concat : (graph.edgeIds ++ [id]).Nodup ↔ id ∉ graph.edgeIds ∧ graph.edgeIds.Nodup := by
        rw [← List.concat_eq_append, List.nodup_concat]
      unfold UniqueEdges edgeIds at concat ⊢
      rw [List.map_append, List.map_singleton]
      constructor
      · intro apart _
        exact (concat.mp apart).1
      · intro new
        exact concat.mpr ⟨new accepted, unique⟩
  | nodeRemoved _ => exact kept (Edit.newEdgeIsFresh_of_none graph rfl) trivial
  | edgeRemoved _ => exact kept (Edit.newEdgeIsFresh_of_none graph rfl) trivial
  | nodeUpdated _ _ => exact kept (Edit.newEdgeIsFresh_of_none graph rfl) trivial
  | @edgeSplit id tailId given _ parts made found =>
      refine kept ?_ trivial
      intro other new
      cases new
      exact (splitEdge_edgeIds made).2

/-! ### Runs of edits -/

/-- What else a run from the empty graph needs to be well formed. -/
theorem wellFormed_run_iff (edits : List Edit) :
    (empty.run edits).WellFormed ↔ (empty.run edits).UniqueEdges := by
  constructor
  · intro formed
    exact formed.uniqueEdges
  · intro unique
    exact
      { uniqueNodes := uniqueNodes_run edits
        uniqueEdges := unique
        oneBegin := run_preserves Change.oneBegin wellFormed_empty.oneBegin edits
        endsPresent := endsPresent_run edits }

theorem toGraph_ofGraph_iff :
    (GraphRecord.ofGraph graph).toGraph = .ok graph ↔ graph.WellFormed := by
  constructor
  · intro read
    exact (GraphRecord.toGraph_eq_ok_iff.mp read).2.2
  · intro formed
    exact GraphRecord.toGraph_ofGraph formed

/-- The edges of every graph along a run differ in their ids exactly if every graph along
the run reads back from its record, and exactly if every accepted connection of the run
comes with an id that no edge has. -/
theorem uniqueEdges_along_run_tfae (edits : List Edit) :
    List.TFAE
      [∀ earlier, earlier <+: edits → (empty.run earlier).UniqueEdges,
        ∀ earlier, earlier <+: edits →
          (GraphRecord.ofGraph (empty.run earlier)).toGraph = .ok (empty.run earlier),
        ∀ earlier edit, earlier ++ [edit] <+: edits → edit.EdgeIdIsNew (empty.run earlier)] := by
  have reads (earlier : List Edit) :
      (GraphRecord.ofGraph (empty.run earlier)).toGraph = .ok (empty.run earlier) ↔
        (empty.run earlier).UniqueEdges :=
    toGraph_ofGraph_iff.trans (wellFormed_run_iff earlier)
  tfae_have 1 ↔ 2 := by simp only [reads]
  tfae_have 1 ↔ 3 := along_run_iff Change.uniqueEdges_iff wellFormed_empty.uniqueEdges edits
  tfae_finish

def repeatedEdgeId : List Edit :=
  [.addNode (Node.plain .begin "s"), .addNode (Node.plain .task "a"),
    .addEdge ⟨"s", some .execOut, "a", some .execIn⟩ "e1",
    .addEdge ⟨"s", some .execOut, "a", some .execIn⟩ "e1"]

theorem repeatedEdgeId_not_uniqueEdges : ¬(empty.run repeatedEdgeId).UniqueEdges := by
  decide

end Graph

end CrewCanvas
