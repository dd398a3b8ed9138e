/-
Draws of fresh ids.

An editor draws ids until one is free, and gives up after a fixed number of draws.  The free id
is the first one of the source that belongs to no node and to no edge and is not reserved.  An
operation that draws ids either makes its change with free ids, or it leaves everything but the
count of the draws.
-/

import CrewCanvas.Editor
import CrewCanvas.Proofs.WellFormed

namespace CrewCanvas

/-! ### What a source draws next -/

namespace IdSource

def ahead (source : IdSource) (draws : Nat) : String := source.draw (source.drawn + draws)

def skip (source : IdSource) (draws : Nat) : IdSource :=
  { source with drawn := source.drawn + draws }

theorem skip_zero (source : IdSource) : source.skip 0 = source := rfl

theorem ahead_skip (source : IdSource) (draws more : Nat) :
    (source.skip draws).ahead more = source.ahead (draws + more) :=
  congrArg source.draw (Nat.add_assoc source.drawn draws more)

theorem skip_skip (source : IdSource) (draws more : Nat) :
    (source.skip draws).skip more = source.skip (draws + more) := by
  unfold skip
  rw [Nat.add_assoc]

end IdSource

namespace Editor

def drawing (editor : Editor) (draws : Nat) : Editor :=
  { editor with ids := editor.ids.skip draws }

@[simp] theorem graph_drawing (editor : Editor) (draws : Nat) :
    (editor.drawing draws).graph = editor.graph := rfl

theorem drawing_drawing (editor : Editor) (draws more : Nat) :
    (editor.drawing draws).drawing more = editor.drawing (draws + more) := by
  unfold drawing
  rw [IdSource.skip_skip]

/-! ### The first free id -/

theorem isFree_iff {graph : Graph} {reserved : List String} {id : String} :
    isFree graph reserved id = true ↔
      id ∉ graph.nodeIds ∧ id ∉ graph.edgeIds ∧ id ∉ reserved := by
  unfold isFree
  rw [Bool.and_eq_true, Bool.and_eq_true, Option.isNone_iff_eq_none, Option.isNone_iff_eq_none,
    Graph.node?_eq_none_iff, Graph.edge?_eq_none_iff, decide_eq_true_eq, and_assoc]

structure FirstFreeAfter (graph : Graph) (reserved : List String) (source : IdSource)
    (failed : Nat) : Prop where
  free : isFree graph reserved (source.ahead failed) = true
  taken : ∀ draws < failed, isFree graph reserved (source.ahead draws) = false

theorem FirstFreeAfter.succ {graph : Graph} {reserved : List String} {source : IdSource}
    {failed : Nat} (taken : isFree graph reserved (source.ahead 0) = false)
    (first : FirstFreeAfter graph reserved (source.skip 1) failed) :
    FirstFreeAfter graph reserved source (failed + 1) := by
  have shift (draws : Nat) : (source.skip 1).ahead draws = source.ahead (draws + 1) := by
    rw [IdSource.ahead_skip, Nat.add_comm]
  refine ⟨shift failed ▸ first.free, ?_⟩
  intro draws less
  cases draws with
  | zero => exact taken
  | succ draws => exact shift draws ▸ first.taken draws (Nat.lt_of_succ_lt_succ less)

theorem drawFree_cases (graph : Graph) (reserved : List String) (draws : Nat)
    (source : IdSource) :
    (∃ failed < draws, FirstFreeAfter graph reserved source failed ∧
        drawFree graph reserved draws source =
          (some (source.ahead failed), source.skip (failed + 1))) ∨
      ((∀ failed < draws, isFree graph reserved (source.ahead failed) = false) ∧
        drawFree graph reserved draws source = (none, source.skip draws)) := by
  induction draws generalizing source with
  | zero => exact Or.inr ⟨fun _ less => absurd less (Nat.not_lt_zero _), rfl⟩
  | succ draws ih =>
      have step : drawFree graph reserved (draws + 1) source =
          if isFree graph reserved (source.ahead 0) then (some (source.ahead 0), source.skip 1)
          else drawFree graph reserved draws (source.skip 1) := rfl
      rw [step]
      cases free : isFree graph reserved (source.ahead 0) with
      | true =>
          refine Or.inl ⟨0, Nat.succ_pos draws, ⟨free, ?_⟩, rfl⟩
          exact fun _ less => absurd less (Nat.not_lt_zero _)
      | false =>
          have again (more : Nat) : (source.skip 1).skip more = source.skip (more + 1) := by
            rw [IdSource.skip_skip, Nat.add_comm]
          rcases ih (source.skip 1) with ⟨failed, less, first, drawn⟩ | ⟨none, drawn⟩
          · refine Or.inl ⟨failed + 1, Nat.succ_lt_succ less, first.succ free, ?_⟩
            rw [if_neg Bool.false_ne_true, drawn, again, IdSource.ahead_skip, Nat.add_comm 1]
          · refine Or.inr ⟨?_, ?_⟩
            · intro failed less
              cases failed with
              | zero => exact free
              | succ failed =>
                  have later := none failed (Nat.lt_of_succ_lt_succ less)
                  rwa [IdSource.ahead_skip, Nat.add_comm] at later
            · rw [if_neg Bool.false_ne_true, drawn, again]

/-- An editor draws the first free id of its source, if it comes soon enough. -/
theorem freshId_cases (editor : Editor) (reserved : List String) :
    (∃ failed < maxDraws, FirstFreeAfter editor.graph reserved editor.ids failed ∧
        editor.freshId reserved = (.ok (editor.ids.ahead failed), editor.drawing (failed + 1))) ∨
      ((∀ failed < maxDraws, isFree editor.graph reserved (editor.ids.ahead failed) = false) ∧
        editor.freshId reserved = (.error .idsExhausted, editor.drawing maxDraws)) := by
  unfold freshId
  rcases drawFree_cases editor.graph reserved maxDraws editor.ids with
    ⟨failed, less, first, drawn⟩ | ⟨none, drawn⟩
  · rw [drawn]
    exact Or.inl ⟨failed, less, first, rfl⟩
  · rw [drawn]
    exact Or.inr ⟨none, rfl⟩

/-! ### Operations that draw ids -/

theorem ignoreMissing_error (error : Error) :
    ignoreMissing (.error error) = .ok none ∨ ignoreMissing (.error error) = .error error := by
  unfold ignoreMissing
  cases missing : error.isNotFound with
  | true => exact Or.inl (by simp [missing])
  | false => exact Or.inr (by simp [missing])

/-- A drop fails and leaves the graph, or it adds a node with a free id. -/
theorem dropNode_cases (editor : Editor) (kind : NodeKind) (position : Position)
    (saved : Option Json) :
    (∃ error draws, editor.dropNode kind position saved = (.error error, editor.drawing draws)) ∨
      ∃ data draws next, droppedData kind saved = .ok data ∧
        isFree editor.graph [] (editor.ids.ahead draws) = true ∧
        editor.graph.addNode { id := editor.ids.ahead draws, position, data } = .ok next ∧
        editor.dropNode kind position saved =
          (.ok (editor.ids.ahead draws), { editor.drawing (draws + 1) with graph := next }) := by
  unfold dropNode
  cases decoded : droppedData kind saved with
  | error error => exact Or.inl ⟨error, 0, rfl⟩
  | ok data =>
      rcases editor.freshId_cases [] with ⟨draws, _, first, drawn⟩ | ⟨_, drawn⟩
      · simp only [drawn]
        cases added : editor.graph.addNode { id := editor.ids.ahead draws, position, data } with
        | error error =>
            refine Or.inl ⟨error, draws + 1, ?_⟩
            simp only [drawing, added]
        | ok next =>
            refine Or.inr ⟨data, draws, next, rfl, first.free, added, ?_⟩
            simp only [drawing, added]
      · simp only [drawn]
        exact Or.inl ⟨.idsExhausted, maxDraws, rfl⟩

/-- A connection is proposed with a free id, unless none is drawn. -/
theorem connect_cases (editor : Editor) (connection : Connection) :
    (∃ draws, editor.connect connection = (.error .idsExhausted, editor.drawing draws)) ∨
      ∃ draws, isFree editor.graph [] (editor.ids.ahead draws) = true ∧
        editor.connect connection =
          (.ok (editor.graph.addEdge connection (editor.ids.ahead draws)).2,
            { editor.drawing (draws + 1) with
              graph := (editor.graph.addEdge connection (editor.ids.ahead draws)).1 }) := by
  unfold connect
  rcases editor.freshId_cases [] with ⟨draws, _, first, drawn⟩ | ⟨_, drawn⟩
  · simp only [drawn]
    exact Or.inr ⟨draws, first.free, rfl⟩
  · simp only [drawn]
    exact Or.inl ⟨maxDraws, rfl⟩

/-- A split answers the id of the new reroute, or it leaves the graph. -/
theorem splitEdge_cases (editor : Editor) (id : EdgeId) (position : Position) :
    (∃ answer draws, editor.splitEdge id position = (answer, editor.drawing draws) ∧
        ∀ reroute, answer ≠ .ok (some reroute)) ∨
      ∃ first second next, first < second ∧
        isFree editor.graph [] (editor.ids.ahead first) = true ∧
        isFree editor.graph [editor.ids.ahead first] (editor.ids.ahead second) = true ∧
        editor.graph.splitEdge id
            { id := editor.ids.ahead first, position, data := NodeData.empty .reroute }
            (editor.ids.ahead second) = .ok next ∧
        editor.splitEdge id position =
          (.ok (some (editor.ids.ahead first)),
            { editor.drawing (second + 1) with graph := next }) := by
  unfold splitEdge
  rcases editor.freshId_cases [] with ⟨first, _, ofNode, drawn⟩ | ⟨_, drawn⟩
  · simp only [drawn]
    rcases (editor.drawing (first + 1)).freshId_cases [editor.ids.ahead first] with
      ⟨more, _, ofEdge, drawn⟩ | ⟨_, drawn⟩
    · have isSecond : (editor.drawing (first + 1)).ids.ahead more =
          editor.ids.ahead (first + 1 + more) := editor.ids.ahead_skip (first + 1) more
      have after : first + 1 + (more + 1) = first + 1 + more + 1 := rfl
      simp only [drawn, isSecond, drawing_drawing, graph_drawing, after]
      cases made : editor.graph.splitEdge id
          { id := editor.ids.ahead first, position, data := NodeData.empty .reroute }
          (editor.ids.ahead (first + 1 + more)) with
      | error error =>
          refine Or.inl ?_
          rcases ignoreMissing_error error with ignored | refused
          · exact ⟨.ok none, first + 1 + more + 1, by simp only [ignored], by simp⟩
          · exact ⟨.error error, first + 1 + more + 1, by simp only [refused], by simp⟩
      | ok next =>
          exact Or.inr ⟨first, first + 1 + more, next, by omega, ofNode.free,
            isSecond ▸ ofEdge.free, made, rfl⟩
    · simp only [drawn, drawing_drawing]
      exact Or.inl ⟨.error .idsExhausted, first + 1 + maxDraws, rfl, by simp⟩
  · simp only [drawn]
    exact Or.inl ⟨.error .idsExhausted, maxDraws, rfl, by simp⟩

end Editor

end CrewCanvas
