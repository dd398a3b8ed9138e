/-
Saved graphs load again.

Whatever a session has done, its snapshot can be saved under a name that is not blank, and
a load of that name gives the same snapshot to any editor.  Records under other names load
what they did before.  Coordinates that are numbers stay numbers, so that the loaded graph
also equals the saved one where coordinates are compared as numbers.
-/

import CrewCanvas.Proofs.EditorRun
import CrewCanvas.Proofs.RecordRoundTrip

namespace CrewCanvas

/-! ### Coordinates that an action brings in -/

def SavedGraph.HasNumbers (saved : SavedGraph) : Prop :=
  ∀ record ∈ saved.nodes, record.position.IsNumber

instance (saved : SavedGraph) : Decidable saved.HasNumbers :=
  inferInstanceAs (Decidable (∀ record ∈ saved.nodes, _))

theorem SavedGraph.hasNumbers_of_toGraph {saved : SavedGraph} {graph : Graph}
    (read : saved.record.toGraph = .ok graph) (numbers : saved.HasNumbers) :
    graph.HasNumbers :=
  GraphRecord.hasNumbers_of_toGraph read (List.forall_mem_map.mpr numbers)

namespace Editor

def Action.HasNumbers : Action → Prop
  | dropNode _ position _ => position.IsNumber
  | splitEdge _ position => position.IsNumber
  | load _ records name => ∀ saved, records[name]? = some saved → saved.HasNumbers
  | _ => True

theorem Draws.isNumber {graph : Graph} {action : Action} {edit : Edit}
    (draws : Draws graph action edit) (numbers : action.HasNumbers) {node : Node}
    (new : edit.newNode? = some node) : node.position.IsNumber := by
  cases draws with
  | dropNode _ _ =>
      cases new
      exact numbers
  | connect _ => cases new
  | change => cases new
  | deleteEdge => cases new
  | splitEdge _ _ =>
      cases new
      exact numbers

theorem Effect.hasNumbers {editor : Editor} {action : Action} {next : Graph}
    {selected : Option NodeId} (effect : Effect editor action next selected)
    (brought : action.HasNumbers) (numbers : editor.graph.HasNumbers) : next.HasNumbers := by
  cases effect with
  | ignored => exact numbers
  | edited draws made =>
      intro position member
      rcases (Graph.change_of_result made).mem_map (fun _ _ => rfl) member with old | ⟨node, new, same⟩
      · exact numbers position old
      · exact same ▸ draws.isNumber brought new
  | selected _ => exact numbers
  | deselected => exact numbers
  | @deleted _ id _ _ removed _ =>
      have change : Graph.Change editor.graph (.removeNode id) next :=
        Graph.change_of_result removed
      intro position member
      rcases change.mem_map (fun _ _ => rfl) member with old | ⟨node, new, same⟩
      · exact numbers position old
      · cases new
  | loaded found read => exact SavedGraph.hasNumbers_of_toGraph read (brought _ found)

theorem hasNumbers_perform {editor : Editor} (numbers : editor.graph.HasNumbers)
    {actions : List Action} (brought : ∀ action ∈ actions, action.HasNumbers) :
    (editor.perform actions).graph.HasNumbers := by
  induction actions generalizing editor with
  | nil => exact numbers
  | cons action rest ih =>
      have first := (effect_act editor action).hasNumbers (brought action List.mem_cons_self) numbers
      exact ih first (fun later member => brought later (List.mem_cons_of_mem _ member))

/-! ### Saving and loading -/

theorem isBlankText_of_mem {name : String} {c : Char} (member : c ∈ name.toList)
    (shown : Text.isBlank c = false) : Text.isBlankText name = false := by
  unfold Text.isBlankText
  rw [List.all_eq_false]
  exact ⟨c, member, by simp [shown]⟩

/-- A load looks at no record but that of its name. -/
theorem run_load_congr (editor : Editor) (name : String) {before after : Records}
    (same : after[name]? = before[name]?) :
    ((editor.load name).run [] after).1 = ((editor.load name).run [] before).1 := by
  cases blank : Text.isBlankText name with
  | true => rw [run_load_blank editor blank, run_load_blank editor blank]
  | false =>
      rw [run_load editor blank, run_load editor blank]
      unfold Store.loaded
      rw [same]

theorem run_load_of_saved (editor : Editor) {name : String}
    (shown : Text.isBlankText name = false) {records : Records} {saved : SavedGraph}
    {graph : Graph} (found : records[name]? = some saved)
    (read : saved.record.toGraph = .ok graph) :
    (editor.load name).run [] records = ((.ok saved.title, editor.withGraph graph), records) := by
  have loaded : Store.loaded [] records name = .ok (saved.title, graph) :=
    Store.loaded_eq_ok_iff.mpr ⟨List.not_mem_nil, saved, found, rfl, read⟩
  rw [run_load editor shown, loaded]

/-- What a session has made is saved, and loads again into any editor. -/
theorem reached_save_load (ids : IdSource) (actions : List Action) (records : Records)
    (clock : Clock) (title : String) {name : String} {c : Char} (member : c ∈ name.toList)
    (shown : Text.isBlank c = false) :
    let editor := (ofIds ids).perform actions
    ∃ saved : Records,
      (editor.save clock name title).run [] records = (.ok true, saved) ∧
        (∀ other : Editor, (other.load name).run [] saved =
          ((.ok title, { other with graph := editor.graph, selected := none }), saved)) ∧
        (∀ (other : Editor) (kept : String), kept ≠ name →
          ((other.load kept).run [] saved).1 = ((other.load kept).run [] records).1) ∧
        ((∀ action ∈ actions, action.HasNumbers) →
          ∀ other : Editor, ((other.load name).run [] saved).1.2.graph.numEq editor.graph = true) := by
  intro editor
  have notBlank := isBlankText_of_mem member shown
  have formed : editor.graph.WellFormed := ((sound_ofIds ids).perform actions).wellFormed
  obtain ⟨saved, titled, sameRecord, run⟩ :=
    Store.run_save notBlank clock title editor.graph records
  have read : saved.record.toGraph = .ok editor.graph :=
    sameRecord ▸ GraphRecord.toGraph_ofGraph formed
  have loads (other : Editor) : (other.load name).run [] (records.insert name saved) =
      ((.ok title, other.withGraph editor.graph), records.insert name saved) :=
    titled ▸ run_load_of_saved other notBlank Std.ExtTreeMap.getElem?_insert_self read
  refine ⟨records.insert name saved, run, loads, ?_, ?_⟩
  · intro other kept different
    apply run_load_congr other kept
    rw [Std.ExtTreeMap.getElem?_insert]
    simp [Ne.symm different]
  · intro brought other
    rw [loads other]
    apply Graph.numEq_self
    apply hasNumbers_perform ?_ brought
    intro position inEmpty
    cases inEmpty

def keptRecords : Records :=
  (∅ : Records).insert "old"
    { name := "old"
      title := "first"
      nodes :=
        [{ id := "b", kind := "begin" },
          { id := "t", kind := "task", position := ⟨Binary64.ofInt 3, Binary64.ofInt (-2)⟩ }] }

def reworkActions : List Action :=
  [.dropNode .agent {} none, .load [] keptRecords "old",
    .connect ⟨"b", some .execOut, "t", some .execIn⟩,
    .splitEdge "n1" ⟨Binary64.ofInt 1, Binary64.zero⟩]

/-- What was made of a saved graph replaces it. -/
theorem rework_save_load :
    let editor := (ofIds (.sequential "n")).perform reworkActions
    editor.graph.nodeIds = ["b", "t", "n2"] ∧ editor.graph.edgeIds = ["n1", "n3"] ∧
      'o' ∈ "old".toList ∧ Text.isBlank 'o' = false ∧
        (∀ action ∈ reworkActions, action.HasNumbers) ∧
        ∃ saved : Records,
          (editor.save ⟨5, 7⟩ "old" "second").run [] keptRecords = (.ok true, saved) ∧
            ∀ other : Editor, ((other.load "old").run [] saved).1.1 = .ok "second" ∧
              ((other.load "old").run [] saved).1.2.graph.numEq editor.graph = true := by
  intro editor
  have member : 'o' ∈ "old".toList := by decide
  have shown : Text.isBlank 'o' = false := by decide
  have numbers : ∀ action ∈ reworkActions, action.HasNumbers := by
    simp only [reworkActions, Action.HasNumbers, keptRecords, List.forall_mem_cons,
      Std.ExtTreeMap.getElem?_insert_self, Option.some.injEq, forall_eq', List.not_mem_nil,
      false_implies, implies_true]
    decide
  obtain ⟨saved, run, loads, _, equal⟩ :=
    reached_save_load (.sequential "n") reworkActions keptRecords ⟨5, 7⟩ "second" member shown
  refine ⟨by decide +kernel, by decide +kernel, member, shown, numbers, saved, run, ?_⟩
  intro other
  exact ⟨by rw [loads other], equal numbers other⟩

end Editor

end CrewCanvas
