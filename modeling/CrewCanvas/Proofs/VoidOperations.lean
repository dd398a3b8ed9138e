/-
Operations that come to nothing.

An operation of an editor answers and leaves an editor behind.  If it fails, if its connection is
rejected, or if it names a node or an edge that is not there, then the graph and the selection
stay as they were: at most ids have been drawn.  This holds whatever a store answers to the calls
that the operation makes to it.
-/

import CrewCanvas.Proofs.FreshIds
import CrewCanvas.Proofs.StoreRun

namespace CrewCanvas

/-! ### Answers of any store -/

/-- A result that a script can end with, whatever is answered to its calls. -/
inductive Script.Ends {α : Type} : Script α → α → Prop
  | done (result : α) : Ends (.done result) result
  | call {step : Call} {next : Except Error step.Answer → Script α} {result : α}
      (answer : Except Error step.Answer) : Ends (next answer) result →
        Ends (.call step next) result

theorem Script.Ends.of_done {α β : Type} {outcome : α × β} {answer : α} {after : β}
    (ends : (Script.done outcome).Ends (answer, after)) :
    answer = outcome.1 ∧ after = outcome.2 := by
  cases ends
  exact ⟨rfl, rfl⟩

theorem Script.ends_run {α : Type} (down : List Method) (records : Records) (script : Script α) :
    script.Ends (script.run down records).1 := by
  induction script generalizing records with
  | done result => exact Ends.done result
  | call step next ih => exact Ends.call _ (ih (step.run down records).1 (step.run down records).2)

theorem Script.Ends.of_map {α β : Type} {f : α → β} {script : Script α} {image : β}
    (ends : (script.map f).Ends image) : ∃ result, script.Ends result ∧ f result = image := by
  induction script with
  | done result =>
      cases ends
      exact ⟨result, Ends.done result, rfl⟩
  | call step next ih =>
      cases ends with
      | call answer rest =>
          obtain ⟨result, ended, same⟩ := ih answer rest
          exact ⟨result, Ends.call answer ended, same⟩

namespace Editor

/-! ### Operations and their answers -/

inductive Operation
  | dropNode (kind : NodeKind) (position : Position) (saved : Option Json)
  | connect (connection : Connection)
  | change (id : NodeId) (field value : String)
  | deleteNode (id : NodeId)
  | deleteEdge (id : EdgeId)
  | splitEdge (id : EdgeId) (position : Position)
  | save (clock : Clock) (name title : String)
  | load (name : String)

namespace Operation

def Result : Operation → Type
  | dropNode _ _ _ => NodeId
  | connect _ => Verdict
  | change _ _ _ => Unit
  | deleteNode _ => Unit
  | deleteEdge _ => Unit
  | splitEdge _ _ => Option NodeId
  | save _ _ _ => Bool
  | load _ => String

/-- The calls an operation makes to a store, and in the end its answer with the editor that it
leaves.  A save reads the editor only. -/
def script (editor : Editor) :
    (operation : Operation) → Script (Except Error operation.Result × Editor)
  | dropNode kind position saved => .done (editor.dropNode kind position saved)
  | connect connection => .done (editor.connect connection)
  | change id field value => .done (editor.change id field value)
  | deleteNode id => .done (.ok (), editor.deleteNode id)
  | deleteEdge id => .done (.ok (), editor.deleteEdge id)
  | splitEdge id position => .done (editor.splitEdge id position)
  | save clock name title => (editor.save clock name title).map (fun answer => (answer, editor))
  | load name => editor.load name

def Failed : (operation : Operation) → Except Error operation.Result → Prop
  | connect _, .ok (verdict : Verdict) => verdict = .rejected
  | _, .ok _ => False
  | _, .error _ => True

def NamesMissing (graph : Graph) : Operation → Prop
  | change id _ _ => id ∉ graph.nodeIds
  | deleteNode id => id ∉ graph.nodeIds
  | deleteEdge id => id ∉ graph.edgeIds
  | splitEdge id _ => id ∉ graph.edgeIds
  | _ => False

end Operation

def OnlyDrew (editor after : Editor) : Prop := ∃ draws, after = editor.drawing draws

theorem OnlyDrew.refl (editor : Editor) : editor.OnlyDrew editor := ⟨0, rfl⟩

/-! ### One operation after the other -/

variable {editor after : Editor}

theorem onlyDrew_dropNode {kind : NodeKind} {position : Position} {saved : Option Json}
    (failed : Operation.Failed (.dropNode kind position saved)
      (editor.dropNode kind position saved).1) :
    editor.OnlyDrew (editor.dropNode kind position saved).2 := by
  rcases editor.dropNode_cases kind position saved with
    ⟨_, draws, outcome⟩ | ⟨_, _, _, _, _, _, outcome⟩
  · exact ⟨draws, congrArg Prod.snd outcome⟩
  · rw [outcome] at failed
    cases failed

theorem addEdge_of_rejected {graph : Graph} {connection : Connection} {id : EdgeId}
    (rejected : (graph.addEdge connection id).2 = .rejected) :
    (graph.addEdge connection id).1 = graph := by
  unfold Graph.addEdge at rejected ⊢
  cases verdict : (graph.judge connection).verdict with
  | rejected => simp only [verdict]
  | accepted line => simp [verdict] at rejected

theorem onlyDrew_connect {connection : Connection}
    (failed : Operation.Failed (.connect connection) (editor.connect connection).1) :
    editor.OnlyDrew (editor.connect connection).2 := by
  rcases editor.connect_cases connection with ⟨draws, outcome⟩ | ⟨draws, _, outcome⟩
  · exact ⟨draws, congrArg Prod.snd outcome⟩
  · rw [outcome] at failed ⊢
    have same := addEdge_of_rejected failed
    exact ⟨draws + 1, by rw [same]; rfl⟩

theorem mem_nodeIds_of_updateNode {graph next : Graph} {id : NodeId} {field value : String}
    (updated : graph.updateNode id field value = .ok next) : id ∈ graph.nodeIds := by
  unfold Graph.updateNode at updated
  cases found : graph.node? id with
  | none => simp [found] at updated
  | some node => exact Graph.mem_nodeIds_iff.mpr ⟨node, found⟩

theorem change_of_void {id : NodeId} {field value : String}
    (void : Operation.Failed (.change id field value) (editor.change id field value).1 ∨
      id ∉ editor.graph.nodeIds) :
    (editor.change id field value).2 = editor := by
  unfold change at void ⊢
  cases updated : editor.graph.updateNode id field value with
  | error error =>
      rcases ignoreMissing_error error with ignored | refused
      · rw [ignored]
      · rw [refused]
  | ok next =>
      rw [updated] at void
      rcases void with failed | missing
      · cases failed
      · exact absurd (mem_nodeIds_of_updateNode updated) missing

theorem deleteNode_of_missing {id : NodeId} (missing : id ∉ editor.graph.nodeIds) :
    editor.deleteNode id = editor := by
  unfold deleteNode Graph.removeNode
  rw [Graph.node?_eq_none_iff.mpr missing]

theorem deleteEdge_of_missing {id : EdgeId} (missing : id ∉ editor.graph.edgeIds) :
    editor.deleteEdge id = editor := by
  unfold deleteEdge Graph.removeEdge
  rw [Graph.edge?_eq_none_iff.mpr missing]

theorem onlyDrew_splitEdge {id : EdgeId} {position : Position}
    (void : Operation.Failed (.splitEdge id position) (editor.splitEdge id position).1 ∨
      id ∉ editor.graph.edgeIds) :
    editor.OnlyDrew (editor.splitEdge id position).2 := by
  rcases editor.splitEdge_cases id position with
    ⟨_, draws, outcome, _⟩ | ⟨_, _, _, _, _, _, made, outcome⟩
  · exact ⟨draws, congrArg Prod.snd outcome⟩
  · rcases void with failed | missing
    · rw [outcome] at failed
      cases failed
    · obtain ⟨edge, _, found, _⟩ := Graph.splitEdge_eq_ok_iff.mp made
      exact absurd (Graph.mem_edgeIds_iff.mpr ⟨edge, found⟩) missing

theorem load_of_failed {name : String} {answer : Except Error String}
    (ends : (editor.load name).Ends (answer, after)) (failed : Operation.Failed (.load name) answer) :
    after = editor := by
  unfold load at ends
  split at ends
  · cases ends
    rfl
  · obtain ⟨loaded, _, same⟩ := ends.of_map
    cases loaded with
    | error error => exact (congrArg Prod.snd same).symm
    | ok found =>
        cases same
        exact failed.elim

/-- An operation that fails, or that names what is not there, draws ids and does nothing else. -/
theorem onlyDrew_of_void (operation : Operation) {answer : Except Error operation.Result}
    (ends : (operation.script editor).Ends (answer, after))
    (void : operation.Failed answer ∨ operation.NamesMissing editor.graph) :
    editor.OnlyDrew after := by
  cases operation with
  | dropNode kind position saved =>
      obtain ⟨rfl, rfl⟩ := Script.Ends.of_done ends
      exact onlyDrew_dropNode (void.resolve_right not_false)
  | connect connection =>
      obtain ⟨rfl, rfl⟩ := Script.Ends.of_done ends
      exact onlyDrew_connect (void.resolve_right not_false)
  | change id field value =>
      obtain ⟨rfl, rfl⟩ := Script.Ends.of_done ends
      exact (change_of_void void).symm ▸ OnlyDrew.refl editor
  | deleteNode id =>
      obtain ⟨rfl, rfl⟩ := Script.Ends.of_done ends
      exact (deleteNode_of_missing (void.resolve_left not_false)).symm ▸ OnlyDrew.refl editor
  | deleteEdge id =>
      obtain ⟨rfl, rfl⟩ := Script.Ends.of_done ends
      exact (deleteEdge_of_missing (void.resolve_left not_false)).symm ▸ OnlyDrew.refl editor
  | splitEdge id position =>
      obtain ⟨rfl, rfl⟩ := Script.Ends.of_done ends
      exact onlyDrew_splitEdge void
  | save clock name title =>
      obtain ⟨_, _, same⟩ := Script.Ends.of_map ends
      cases same
      exact OnlyDrew.refl editor
  | load name =>
      rw [load_of_failed ends (void.resolve_right not_false)]
      exact OnlyDrew.refl editor

def stuckEditor : Editor where
  graph :=
    { nodes := [Node.plain .begin "s", Node.plain .task "t"]
      edges := [⟨"e", "s", some .execOut, "t", some .execIn, true⟩] }
  ids := .cycle ["r"]
  selected := some "t"

def twoBegins : SavedGraph :=
  { name := "crew"
    nodes := [{ id := "s", kind := "begin" }, { id := "u", kind := "begin" }] }

/-- A split that has drawn the id of its reroute finds none for its edge, and a load finds a
record that is no graph. -/
theorem stuckEditor_onlyDrew :
    let split := stuckEditor.splitEdge "e" {}
    let load := ((stuckEditor.load "crew").run [] ((∅ : Records).insert "crew" twoBegins)).1
    split.1 = .error .idsExhausted ∧ split.2.ids.drawn = 65 ∧ stuckEditor.OnlyDrew split.2 ∧
      load.1 = .error (.beginTaken "s") ∧ stuckEditor.OnlyDrew load.2 := by
  intro split load
  have exhausted : split.1 = .error .idsExhausted := by decide +kernel
  have unread : load.1 = .error (.beginTaken "s") := by
    have shown : Text.isBlankText "crew" = false := by decide
    have read : twoBegins.record.toGraph = .error (.beginTaken "s") := by decide +kernel
    have loaded : Store.loaded [] ((∅ : Records).insert "crew" twoBegins) "crew" =
        .error (.beginTaken "s") := by
      unfold Store.loaded
      rw [Std.ExtTreeMap.getElem?_insert_self]
      simp only [read]
      rfl
    change ((stuckEditor.load "crew").run [] _).1.1 = _
    rw [run_load stuckEditor shown, loaded]
  refine ⟨exhausted, by decide +kernel, ?_, unread, ?_⟩
  · apply onlyDrew_of_void (.splitEdge "e" {}) (Script.Ends.done split)
    exact Or.inl (exhausted ▸ trivial)
  · apply onlyDrew_of_void (.load "crew") (Script.ends_run [] _ (stuckEditor.load "crew"))
    exact Or.inl (unread ▸ trivial)

end Editor

end CrewCanvas
