/-
Fresh ids for a graph that was loaded.

A new editor counts its ids from zero, so that it comes first upon ids that a loaded graph has
already.  A drop gets the first one that no node and no edge has.  It gets none where as many
first ids as may be drawn are all in use, which takes as many nodes and edges.
-/

import CrewCanvas.Proofs.GivenIds
import CrewCanvas.Proofs.SaveAndLoad
import CrewCanvas.Proofs.StoreRequests
import Mathlib.Data.List.Perm.Subperm
import Mathlib.Order.Bounds.Basic

namespace CrewCanvas

namespace Editor

/-! ### Snapshots that are loaded -/

/-- A load that succeeds after a save gives the snapshot that was saved, whatever was done to
the other names meanwhile. -/
theorem loaded_eq {saver editor loaded : Editor} {clock : Clock} {name title shown : String}
    {down downLater : List Method} {records saved later : Records}
    (wasSaved : (saver.save clock name title).run down records = (.ok true, saved))
    (kept : later[name]? = saved[name]?)
    (wasLoaded : ((editor.load name).run downLater later).1 = (.ok shown, loaded)) :
    loaded = editor.withGraph saver.graph := by
  obtain ⟨written, there, sameRecord⟩ := Store.find_of_run_save wasSaved
  cases blank : Text.isBlankText name with
  | true =>
      rw [run_load_blank editor blank] at wasLoaded
      cases wasLoaded
  | false =>
      rw [run_load editor blank] at wasLoaded
      cases answer : Store.loaded downLater later name with
      | error error =>
          rw [answer] at wasLoaded
          cases wasLoaded
      | ok found =>
          obtain ⟨_, record, present, _, read⟩ := Store.loaded_eq_ok_iff.mp answer
          cases (kept.symm.trans present).symm.trans there
          rw [sameRecord] at read
          rw [answer] at wasLoaded
          cases wasLoaded
          rw [GraphRecord.eq_of_toGraph_ofGraph read]

/-- A well-formed snapshot is saved, and loads again into any editor. -/
theorem run_save_load {editor : Editor} (formed : editor.graph.WellFormed) {name : String}
    (shown : Text.isBlankText name = false) (clock : Clock) (title : String) (records : Records) :
    ∃ saved : Records, (editor.save clock name title).run [] records = (.ok true, saved) ∧
      ∀ other : Editor, (other.load name).run [] saved =
        ((.ok title, other.withGraph editor.graph), saved) := by
  obtain ⟨saved, titled, sameRecord, run⟩ :=
    Store.run_save shown clock title editor.graph records
  refine ⟨records.insert name saved, run, ?_⟩
  intro other
  have read : saved.record.toGraph = .ok editor.graph :=
    sameRecord ▸ GraphRecord.toGraph_ofGraph formed
  exact titled ▸ run_load_of_saved other shown Std.ExtTreeMap.getElem?_insert_self read

end Editor

/-! ### Ids that are not in use -/

def Graph.Unused (graph : Graph) (id : String) : Prop := id ∉ graph.nodeIds ∧ id ∉ graph.edgeIds

instance (graph : Graph) (id : String) : Decidable (graph.Unused id) :=
  inferInstanceAs (Decidable (_ ∧ _))

namespace Editor

theorem isFree_nil_iff {graph : Graph} {id : String} :
    isFree graph [] id = true ↔ graph.Unused id := by
  rw [isFree_iff, Graph.Unused]
  simp

theorem isFree_nil_eq_false_iff {graph : Graph} {id : String} :
    isFree graph [] id = false ↔ ¬graph.Unused id := by
  rw [← isFree_nil_iff, Bool.not_eq_true]

/-- A dropped task gets the first free id, if it comes soon enough. -/
theorem dropTask_cases (editor : Editor) (position : Position) :
    (∃ failed < maxDraws, FirstFreeAfter editor.graph [] editor.ids failed ∧
        editor.dropNode .task position none =
          (.ok (editor.ids.ahead failed),
            { editor.drawing (failed + 1) with
              graph.nodes := editor.graph.nodes ++
                [{ id := editor.ids.ahead failed, position, data := NodeData.empty .task }] })) ∨
      ((∀ failed < maxDraws, isFree editor.graph [] (editor.ids.ahead failed) = false) ∧
        editor.dropNode .task position none = (.error .idsExhausted, editor.drawing maxDraws)) := by
  unfold dropNode droppedData
  rcases editor.freshId_cases [] with ⟨failed, less, first, drawn⟩ | ⟨taken, drawn⟩
  · let node : Node :=
      { id := editor.ids.ahead failed, position, data := NodeData.empty .task }
    have absent : editor.graph.node? node.id = none :=
      Graph.node?_eq_none_iff.mpr (isFree_iff.mp first.free).1
    have added := Graph.addNode_eq_ok_iff.mpr ⟨absent, (fun begins => nomatch begins), rfl⟩
    refine Or.inl ⟨failed, less, first, ?_⟩
    simp only [drawn, graph_drawing, node] at added ⊢
    rw [added]
  · refine Or.inr ⟨taken, ?_⟩
    simp only [drawn]

/-! ### The ids of a new editor -/

def numbered (count : Nat) : NodeId := "node_" ++ toString count

def newEditor : Editor := ofIds (.sequential "node_")

theorem ahead_newEditor (count : Nat) : newEditor.ids.ahead count = numbered count := by
  unfold IdSource.ahead
  exact congrArg numbered (Nat.zero_add count)

theorem numbered_injective : Function.Injective numbered := sequential_injective "node_"

/-- Among one more of the first ids than there are nodes and edges, one is not in use. -/
theorem exists_unused (graph : Graph) {bound : Nat}
    (few : graph.nodes.length + graph.edges.length < bound) :
    ∃ count < bound, graph.Unused (numbered count) := by
  apply Decidable.byContradiction
  intro none
  have all : (List.range bound).map numbered ⊆ graph.ids := by
    intro id member
    obtain ⟨count, less, same⟩ := List.mem_map.mp member
    apply Decidable.byContradiction
    intro unused
    rw [← same, Graph.mem_ids_iff, not_or] at unused
    exact none ⟨count, List.mem_range.mp less, unused⟩
  have counted := ((List.nodup_range.map numbered_injective).subperm all).length_le
  simp only [Graph.ids, Graph.nodeIds, Graph.edgeIds, List.length_append, List.length_map,
    List.length_range] at counted
  omega

/-- The answer of a drop: the first id that the graph does not use, if it comes soon enough. -/
inductive FirstUnused (graph : Graph) : Except Error NodeId → Prop
  | given {count : Nat} : count < maxDraws →
      IsLeast {count | graph.Unused (numbered count)} count →
        FirstUnused graph (.ok (numbered count))
  | refused : (∀ count < maxDraws, ¬graph.Unused (numbered count)) →
      FirstUnused graph (.error .idsExhausted)

theorem FirstUnused.ok_of_few {graph : Graph} {answer : Except Error NodeId}
    (first : FirstUnused graph answer)
    (few : graph.nodes.length + graph.edges.length < maxDraws) : ∃ id, answer = .ok id := by
  cases first with
  | @given count _ _ => exact ⟨numbered count, rfl⟩
  | refused none =>
      obtain ⟨count, less, unused⟩ := exists_unused graph few
      exact absurd unused (none count less)

theorem isLeast_of_first {graph : Graph} {failed : Nat}
    (first : FirstFreeAfter graph [] newEditor.ids failed) :
    IsLeast {count | graph.Unused (numbered count)} failed := by
  constructor
  · have free := isFree_nil_iff.mp first.free
    rwa [ahead_newEditor] at free
  · intro count unused
    apply Nat.le_of_not_lt
    intro less
    have taken := isFree_nil_eq_false_iff.mp (first.taken count less)
    rw [ahead_newEditor] at taken
    exact taken unused

theorem firstUnused_dropTask (graph : Graph) (position : Position) :
    FirstUnused graph ((newEditor.withGraph graph).dropNode .task position none).1 := by
  have numbers (count : Nat) : (newEditor.withGraph graph).ids.ahead count = numbered count :=
    ahead_newEditor count
  rcases (newEditor.withGraph graph).dropTask_cases position with
    ⟨failed, less, first, outcome⟩ | ⟨taken, outcome⟩
  · rw [outcome, numbers]
    exact FirstUnused.given less (isLeast_of_first first)
  · rw [outcome]
    apply FirstUnused.refused
    intro count less
    have isTaken := isFree_nil_eq_false_iff.mp (taken count less)
    rwa [numbers] at isTaken

/-- A new editor that loads a saved snapshot drops a task with the first id that the snapshot
does not use, if it comes soon enough; with few nodes and edges it does. -/
theorem dropTask_after_load {saver loaded : Editor} {clock : Clock} {name title shown : String}
    {down downLater : List Method} {records saved later : Records}
    (wasSaved : (saver.save clock name title).run down records = (.ok true, saved))
    (kept : later[name]? = saved[name]?)
    (wasLoaded : ((newEditor.load name).run downLater later).1 = (.ok shown, loaded))
    (position : Position) :
    loaded.graph = saver.graph ∧
      FirstUnused saver.graph (loaded.dropNode .task position none).1 ∧
      (saver.graph.nodes.length + saver.graph.edges.length < maxDraws →
        ∃ id, (loaded.dropNode .task position none).1 = .ok id) := by
  rw [loaded_eq wasSaved kept wasLoaded]
  have first := firstUnused_dropTask saver.graph position
  exact ⟨rfl, first, first.ok_of_few⟩

def gapActions : List Action :=
  [.dropNode .begin {} none, .dropNode .agent {} none, .dropNode .task {} none,
    .connect ⟨"node_0", some .execOut, "node_2", some .execIn⟩, .deleteNode "node_1"]

/-- What was saved with a gap in its ids gets a task with the id in the gap. -/
theorem gap_dropTask_after_load :
    let saver := newEditor.perform gapActions
    saver.graph.nodeIds = ["node_0", "node_2"] ∧ saver.graph.edgeIds = ["node_3"] ∧
      ∃ saved loaded,
        (saver.save ⟨5, 7⟩ "crew" "Crew").run [] ∅ = (.ok true, saved) ∧
        ((newEditor.load "crew").run [] saved).1 = (.ok "Crew", loaded) ∧
        FirstUnused saver.graph (loaded.dropNode .task {} none).1 ∧
        (loaded.dropNode .task {} none).1 = .ok "node_1" := by
  intro saver
  have formed : saver.graph.WellFormed := ((sound_ofIds _).perform gapActions).wellFormed
  have shown : Text.isBlankText "crew" = false := by decide
  obtain ⟨saved, wasSaved, loads⟩ := run_save_load formed shown ⟨5, 7⟩ "Crew" ∅
  have wasLoaded := congrArg Prod.fst (loads newEditor)
  obtain ⟨_, first, _⟩ := dropTask_after_load wasSaved rfl wasLoaded {}
  exact ⟨by decide +kernel, by decide +kernel, saved, _, wasSaved, wasLoaded, first,
    by decide +kernel⟩

/-! ### Snapshots that use the first ids -/

def dropTasks (count : Nat) : List Action := List.replicate count (.dropNode .task {} none)

structure Filled (editor : Editor) (count : Nat) : Prop where
  ids : editor.ids = newEditor.ids.skip count
  nodes : editor.graph.nodeIds = (List.range count).map numbered
  edges : editor.graph.edges = []

theorem Filled.unused {editor : Editor} {count : Nat} (filled : Filled editor count) :
    editor.graph.Unused (numbered count) := by
  constructor
  · rw [filled.nodes]
    intro member
    obtain ⟨other, less, same⟩ := List.mem_map.mp member
    have isCount := numbered_injective same
    exact absurd (List.mem_range.mp less) (isCount ▸ Nat.lt_irrefl count)
  · rw [Graph.edgeIds, filled.edges]
    exact List.not_mem_nil

theorem Filled.dropTask {editor : Editor} {count : Nat} (filled : Filled editor count) :
    Filled (editor.act (.dropNode .task {} none)) (count + 1) := by
  have next : editor.ids.ahead 0 = numbered count := by
    rw [filled.ids, IdSource.ahead_skip, ahead_newEditor, Nat.add_zero]
  have free : isFree editor.graph [] (editor.ids.ahead 0) = true :=
    isFree_nil_iff.mpr (next ▸ filled.unused)
  unfold act
  rcases editor.dropTask_cases {} with ⟨failed, _, first, outcome⟩ | ⟨taken, _⟩
  · have isFirst : failed = 0 := by
      apply Nat.eq_zero_of_not_pos
      intro positive
      exact Bool.noConfusion (free.symm.trans (first.taken 0 positive))
    subst isFirst
    simp only [outcome, next]
    constructor
    · rw [← IdSource.skip_skip, ← filled.ids]
      rfl
    · simp [Graph.nodeIds, List.range_succ, ← filled.nodes]
    · exact filled.edges
  · exact Bool.noConfusion (free.symm.trans (taken 0 (by decide)))

theorem filled_perform (count : Nat) : Filled (newEditor.perform (dropTasks count)) count := by
  induction count with
  | zero => exact ⟨rfl, rfl, rfl⟩
  | succ count ih =>
      unfold perform dropTasks at ih ⊢
      rw [List.replicate_succ', List.foldl_append]
      exact ih.dropTask

theorem Filled.dropTask_exhausted {editor : Editor} (filled : Filled editor maxDraws)
    (position : Position) :
    ((newEditor.withGraph editor.graph).dropNode .task position none).1 =
      .error .idsExhausted := by
  have first := firstUnused_dropTask editor.graph position
  generalize ((newEditor.withGraph editor.graph).dropNode .task position none).1 = answer at first
  cases first with
  | @given count less least =>
      have used : numbered count ∈ editor.graph.nodeIds := by
        rw [filled.nodes]
        exact List.mem_map_of_mem (List.mem_range.mpr less)
      exact absurd used least.1.1
  | refused _ => rfl

/-- Where as many tasks were dropped and saved as an id may be drawn, a new editor loads them
and can drop no task. -/
theorem Filled.load_exhausted {saver : Editor} (filled : Filled saver maxDraws)
    (formed : saver.graph.WellFormed) {name : String} (shown : Text.isBlankText name = false)
    (clock : Clock) (title : String) (records : Records) (position : Position) :
    ∃ saved loaded,
      (saver.save clock name title).run [] records = (.ok true, saved) ∧
      ((newEditor.load name).run [] saved).1 = (.ok title, loaded) ∧
      loaded.graph = saver.graph ∧
      (loaded.dropNode .task position none).1 = .error .idsExhausted := by
  obtain ⟨saved, wasSaved, loads⟩ := run_save_load formed shown clock title records
  exact ⟨saved, _, wasSaved, congrArg Prod.fst (loads newEditor), rfl,
    filled.dropTask_exhausted position⟩

theorem dropTasks_load_exhausted :
    let saver := newEditor.perform (dropTasks maxDraws)
    ∃ saved loaded,
      (saver.save ⟨5, 7⟩ "crew" "Crew").run [] ∅ = (.ok true, saved) ∧
      ((newEditor.load "crew").run [] saved).1 = (.ok "Crew", loaded) ∧
      loaded.graph = saver.graph ∧ (loaded.dropNode .task {} none).1 = .error .idsExhausted :=
  (filled_perform maxDraws).load_exhausted ((sound_ofIds _).perform _).wellFormed (by decide)
    ⟨5, 7⟩ "Crew" ∅ {}

end Editor

end CrewCanvas
