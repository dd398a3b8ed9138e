/-
Runs of an editing session.

An action of the canvas comes down to an edit with freshly drawn ids, to a change of
the selection or to a graph read from a store.  Whatever the ids that the source
draws and whatever the store holds, the snapshot stays well formed and the selection
stays a node of it; without a load no id belongs to a node and to an edge.
-/

import CrewCanvas.Proofs.FreshIds
import CrewCanvas.Proofs.RecordGraph
import CrewCanvas.Proofs.StoreRun

namespace CrewCanvas

namespace Editor

/-! ### Actions -/

/-- An action of the canvas.  A load comes with what the store holds at that time and
with the methods that are down. -/
inductive Action
  | dropNode (kind : NodeKind) (position : Position) (saved : Option Json)
  | connect (connection : Connection)
  | change (id : NodeId) (field value : String)
  | select (id : Option NodeId)
  | deleteSelected
  | deleteNode (id : NodeId)
  | deleteEdge (id : EdgeId)
  | splitEdge (id : EdgeId) (position : Position)
  | load (down : List Method) (records : Records) (name : String)

def Action.isLoad : Action → Bool
  | load _ _ _ => true
  | _ => false

def act (editor : Editor) : Action → Editor
  | .dropNode kind position saved => (editor.dropNode kind position saved).2
  | .connect connection => (editor.connect connection).2
  | .change id field value => (editor.change id field value).2
  | .select id => editor.select id
  | .deleteSelected => editor.deleteSelected.2
  | .deleteNode id => editor.deleteNode id
  | .deleteEdge id => editor.deleteEdge id
  | .splitEdge id position => (editor.splitEdge id position).2
  | .load down records name => ((editor.load name).run down records).1.2

def perform (editor : Editor) (actions : List Action) : Editor := actions.foldl act editor

/-! ### What an action can do -/

/-- The edit behind an action, made with ids that were free. -/
inductive Draws (graph : Graph) : Action → Edit → Prop
  | dropNode {kind : NodeKind} {position : Position} {saved : Option Json} {id : NodeId}
      {data : NodeData} :
      isFree graph [] id = true → droppedData kind saved = .ok data →
        Draws graph (.dropNode kind position saved) (.addNode { id, position, data })
  | connect {connection : Connection} {id : EdgeId} :
      isFree graph [] id = true → Draws graph (.connect connection) (.addEdge connection id)
  | change {id : NodeId} {field value : String} :
      Draws graph (.change id field value) (.updateNode id field value)
  | deleteEdge {id : EdgeId} : Draws graph (.deleteEdge id) (.removeEdge id)
  | splitEdge {id tail : EdgeId} {position : Position} {reroute : NodeId} :
      isFree graph [] reroute = true → isFree graph [reroute] tail = true →
        Draws graph (.splitEdge id position)
          (.splitEdge id { id := reroute, position, data := NodeData.empty .reroute } tail)

inductive Effect (editor : Editor) : Action → Graph → Option NodeId → Prop
  | ignored {action : Action} : Effect editor action editor.graph editor.selected
  | edited {action : Action} {edit : Edit} {next : Graph} :
      Draws editor.graph action edit → edit.result editor.graph = .ok next →
        Effect editor action next editor.selected
  | selected {id : NodeId} :
      id ∈ editor.graph.nodeIds → Effect editor (.select (some id)) editor.graph (some id)
  | deselected {action : Action} : Effect editor action editor.graph none
  | deleted {action : Action} {id : NodeId} {next : Graph} {selected : Option NodeId} :
      editor.graph.removeNode id = .ok next →
        selected = none ∨ (selected = editor.selected ∧ selected ≠ some id) →
          Effect editor action next selected
  | loaded {down : List Method} {records : Records} {name : String} {saved : SavedGraph}
      {next : Graph} :
      records[name]? = some saved → saved.record.toGraph = .ok next →
        Effect editor (.load down records name) next none

theorem effect_dropNode (editor : Editor) (kind : NodeKind) (position : Position)
    (saved : Option Json) :
    Effect editor (.dropNode kind position saved) (editor.dropNode kind position saved).2.graph
      (editor.dropNode kind position saved).2.selected := by
  rcases editor.dropNode_cases kind position saved with
    ⟨error, draws, outcome⟩ | ⟨data, draws, next, decoded, free, added, outcome⟩
  · rw [outcome]
    exact Effect.ignored
  · rw [outcome]
    exact Effect.edited (Draws.dropNode free decoded) added

theorem effect_connect (editor : Editor) (connection : Connection) :
    Effect editor (.connect connection) (editor.connect connection).2.graph
      (editor.connect connection).2.selected := by
  rcases editor.connect_cases connection with ⟨draws, outcome⟩ | ⟨draws, free, outcome⟩
  · rw [outcome]
    exact Effect.ignored
  · rw [outcome]
    exact Effect.edited (Draws.connect free) rfl

theorem effect_change (editor : Editor) (id : NodeId) (field value : String) :
    Effect editor (.change id field value) (editor.change id field value).2.graph
      (editor.change id field value).2.selected := by
  unfold change
  cases updated : editor.graph.updateNode id field value with
  | error error =>
      rcases ignoreMissing_error error with ignored | refused
      · simp only [ignored]
        exact Effect.ignored
      · simp only [refused]
        exact Effect.ignored
  | ok next => exact Effect.edited Draws.change updated

theorem effect_select (editor : Editor) (id : Option NodeId) :
    Effect editor (.select id) (editor.select id).graph (editor.select id).selected := by
  unfold select
  cases id with
  | none => exact Effect.deselected
  | some id =>
      rw [Option.filter_some]
      split
      · rename_i found
        exact Effect.selected (Graph.mem_nodeIds_iff.mpr (Option.isSome_iff_exists.mp found))
      · exact Effect.deselected

theorem effect_deleteNode (editor : Editor) (id : NodeId) :
    Effect editor (.deleteNode id) (editor.deleteNode id).graph
      (editor.deleteNode id).selected := by
  unfold deleteNode
  cases removed : editor.graph.removeNode id with
  | error error => exact Effect.ignored
  | ok next =>
      refine Effect.deleted removed ?_
      by_cases same : editor.selected = some id
      · exact Or.inl (if_pos same)
      · exact Or.inr ⟨if_neg same, by rwa [if_neg same]⟩

theorem effect_deleteSelected (editor : Editor) :
    Effect editor .deleteSelected editor.deleteSelected.2.graph
      editor.deleteSelected.2.selected := by
  unfold deleteSelected
  split
  · exact Effect.ignored
  · rename_i id _
    unfold deleteNode
    cases removed : editor.graph.removeNode id with
    | error error => exact Effect.deselected
    | ok next => exact Effect.deleted removed (Or.inl rfl)

theorem effect_deleteEdge (editor : Editor) (id : EdgeId) :
    Effect editor (.deleteEdge id) (editor.deleteEdge id).graph
      (editor.deleteEdge id).selected := by
  unfold deleteEdge
  cases removed : editor.graph.removeEdge id with
  | error error => exact Effect.ignored
  | ok next => exact Effect.edited Draws.deleteEdge removed

theorem effect_splitEdge (editor : Editor) (id : EdgeId) (position : Position) :
    Effect editor (.splitEdge id position) (editor.splitEdge id position).2.graph
      (editor.splitEdge id position).2.selected := by
  rcases editor.splitEdge_cases id position with
    ⟨answer, draws, outcome, _⟩ | ⟨first, second, next, _, freeNode, freeEdge, made, outcome⟩
  · rw [outcome]
    exact Effect.ignored
  · rw [outcome]
    exact Effect.edited (Draws.splitEdge freeNode freeEdge) made

theorem effect_load (editor : Editor) (down : List Method) (records : Records) (name : String) :
    Effect editor (.load down records name) ((editor.load name).run down records).1.2.graph
      ((editor.load name).run down records).1.2.selected := by
  cases blank : Text.isBlankText name with
  | true =>
      rw [run_load_blank editor blank]
      exact Effect.ignored
  | false =>
      rw [run_load editor blank]
      cases answer : Store.loaded down records name with
      | error error => exact Effect.ignored
      | ok found =>
          obtain ⟨_, saved, present, _, read⟩ := Store.loaded_eq_ok_iff.mp answer
          exact Effect.loaded present read

theorem effect_act (editor : Editor) (action : Action) :
    Effect editor action (editor.act action).graph (editor.act action).selected := by
  cases action with
  | dropNode kind position saved => exact effect_dropNode editor kind position saved
  | connect connection => exact effect_connect editor connection
  | change id field value => exact effect_change editor id field value
  | select id => exact effect_select editor id
  | deleteSelected => exact effect_deleteSelected editor
  | deleteNode id => exact effect_deleteNode editor id
  | deleteEdge id => exact effect_deleteEdge editor id
  | splitEdge id position => exact effect_splitEdge editor id position
  | load down records name => exact effect_load editor down records name

/-! ### What actions keep -/

theorem Draws.newEdgeIsFresh {graph : Graph} {action : Action} {edit : Edit}
    (draws : Draws graph action edit) : edit.NewEdgeIsFresh graph := by
  intro id new
  cases draws with
  | dropNode _ _ => cases new
  | connect free =>
      cases new
      exact (isFree_iff.mp free).2.1
  | change => cases new
  | deleteEdge => cases new
  | splitEdge _ free =>
      cases new
      exact (isFree_iff.mp free).2.1

theorem Draws.newIdsApart {graph : Graph} {action : Action} {edit : Edit}
    (draws : Draws graph action edit) : edit.NewIdsApart graph := by
  cases draws with
  | dropNode free _ =>
      constructor
      · intro id new
        cases new
        exact (isFree_iff.mp free).2.1
      · intro id new
        cases new
      · intro id _ new
        cases new
  | connect free =>
      constructor
      · intro id new
        cases new
      · intro id new
        cases new
        exact (isFree_iff.mp free).1
      · intro id new
        cases new
  | change => exact Edit.newIdsApart_of_none graph rfl rfl
  | deleteEdge => exact Edit.newIdsApart_of_none graph rfl rfl
  | splitEdge freeNode freeEdge =>
      obtain ⟨notNode, _, notReserved⟩ := isFree_iff.mp freeEdge
      constructor
      · intro id new
        cases new
        exact (isFree_iff.mp freeNode).2.1
      · intro id new
        cases new
        exact notNode
      · intro id newNode newEdge
        cases newNode
        cases newEdge
        exact notReserved List.mem_cons_self

theorem Draws.keeps_nodeIds {graph next : Graph} {action : Action} {edit : Edit}
    (draws : Draws graph action edit) (change : Graph.Change graph edit next) {id : NodeId}
    (member : id ∈ graph.nodeIds) : id ∈ next.nodeIds := by
  refine (change.keeps ?_).mem_nodeIds member
  intro removes
  cases draws <;> cases removes

/-- A well-formed snapshot whose selection is a node of it. -/
structure Sound (editor : Editor) : Prop where
  wellFormed : editor.graph.WellFormed
  selected : ∀ id, editor.selected = some id → id ∈ editor.graph.nodeIds

theorem sound_ofIds (ids : IdSource) : (ofIds ids).Sound where
  wellFormed := Graph.wellFormed_empty
  selected := by
    intro id selected
    cases selected

theorem Effect.wellFormed {editor : Editor} {action : Action} {next : Graph}
    {selected : Option NodeId} (effect : Effect editor action next selected)
    (formed : editor.graph.WellFormed) : next.WellFormed := by
  cases effect with
  | ignored => exact formed
  | edited draws made => exact (Graph.change_of_result made).wellFormed formed draws.newEdgeIsFresh
  | selected _ => exact formed
  | deselected => exact formed
  | @deleted _ id _ _ removed _ =>
      have change : Graph.Change editor.graph (.removeNode id) next :=
        Graph.change_of_result removed
      exact change.wellFormed formed (fun _ new => nomatch new)
  | loaded _ read => exact (GraphRecord.toGraph_eq_ok_iff.mp read).2.2

theorem Effect.selected_mem {editor : Editor} {action : Action} {next : Graph}
    {selected : Option NodeId} (effect : Effect editor action next selected)
    (sound : editor.Sound) {id : NodeId} (chosen : selected = some id) : id ∈ next.nodeIds := by
  cases effect with
  | ignored => exact sound.selected id chosen
  | edited draws made =>
      exact draws.keeps_nodeIds (Graph.change_of_result made) (sound.selected id chosen)
  | selected member =>
      cases chosen
      exact member
  | deselected => cases chosen
  | @deleted _ removedId _ _ removed outcome =>
      have change : Graph.Change editor.graph (.removeNode removedId) next :=
        Graph.change_of_result removed
      rcases outcome with cleared | ⟨kept, other⟩
      · cases cleared.symm.trans chosen
      · refine (change.keeps ?_).mem_nodeIds (sound.selected id (kept.symm.trans chosen))
        intro same
        cases same
        exact other chosen
  | loaded _ _ => cases chosen

theorem Effect.idsApart {editor : Editor} {action : Action} {next : Graph}
    {selected : Option NodeId} (effect : Effect editor action next selected)
    (noLoad : action.isLoad = false) (apart : editor.graph.IdsApart) : next.IdsApart := by
  cases effect with
  | ignored => exact apart
  | edited draws made => exact (Graph.change_of_result made).idsApart apart draws.newIdsApart
  | selected _ => exact apart
  | deselected => exact apart
  | @deleted _ id _ _ removed _ =>
      have change : Graph.Change editor.graph (.removeNode id) next :=
        Graph.change_of_result removed
      exact change.idsApart apart (Edit.newIdsApart_of_none editor.graph rfl rfl)
  | loaded _ _ => cases noLoad

theorem Sound.act {editor : Editor} (sound : editor.Sound) (action : Action) :
    (editor.act action).Sound where
  wellFormed := (effect_act editor action).wellFormed sound.wellFormed
  selected := fun _ chosen => (effect_act editor action).selected_mem sound chosen

theorem Sound.perform {editor : Editor} (sound : editor.Sound) (actions : List Action) :
    (editor.perform actions).Sound := by
  induction actions generalizing editor with
  | nil => exact sound
  | cons action rest ih => exact ih (sound.act action)

theorem idsApart_perform {editor : Editor} (apart : editor.graph.IdsApart)
    {actions : List Action} (noLoad : ∀ action ∈ actions, action.isLoad = false) :
    (editor.perform actions).graph.IdsApart := by
  induction actions generalizing editor with
  | nil => exact apart
  | cons action rest ih =>
      have first := (effect_act editor action).idsApart (noLoad action List.mem_cons_self) apart
      exact ih first (fun later member => noLoad later (List.mem_cons_of_mem _ member))

/-- From an empty graph, whatever the source of ids draws. -/
theorem reached_sound (ids : IdSource) (actions : List Action) :
    ((ofIds ids).perform actions).Sound ∧
      ((∀ action ∈ actions, action.isLoad = false) →
        ((ofIds ids).perform actions).graph.IdsApart) := by
  refine ⟨(sound_ofIds ids).perform actions, fun noLoad => idsApart_perform ?_ noLoad⟩
  intro id member
  cases member

def repeatedIdActions : List Action :=
  [.dropNode .begin {} none, .dropNode .task {} none,
    .connect ⟨"a", some .execOut, "b", some .execIn⟩, .select (some "b"), .splitEdge "c" {},
    .deleteNode "b", .dropNode .begin {} (some .null)]

theorem repeatedIds_sound :
    let editor := (ofIds (.cycle ["a", "a", "b", "c", "d", "e"])).perform repeatedIdActions
    (∀ action ∈ repeatedIdActions, action.isLoad = false) ∧
      editor.graph.nodeIds = ["a", "d"] ∧ editor.graph.edgeIds = ["c"] ∧ editor.selected = none ∧
        editor.Sound ∧ editor.graph.IdsApart := by
  have noLoad : ∀ action ∈ repeatedIdActions, action.isLoad = false := by decide
  have reached := reached_sound (.cycle ["a", "a", "b", "c", "d", "e"]) repeatedIdActions
  exact ⟨noLoad, by decide, by decide, by decide, reached.1, reached.2 noLoad⟩

end Editor

end CrewCanvas
