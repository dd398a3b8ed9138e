/-
An editing session: the current snapshot, a source of ids and a selection.

Every action of the canvas is one operation.  An operation that is refused leaves
the snapshot and the selection as they were; it may have drawn ids.  Operations
on a node or an edge that is no longer there are ignored.
-/

import CrewCanvas.Artifact.Declarative
import CrewCanvas.Artifact.Scaffold
import CrewCanvas.Graph.Edit
import CrewCanvas.IdSource
import CrewCanvas.Store.Save

namespace CrewCanvas

structure Editor where
  graph : Graph := {}
  ids : IdSource
  selected : Option NodeId := none
  settings : CompileSettings := {}

namespace Editor

def ofSettings (settings : Settings) (seed : Nat) : Editor :=
  { ids := IdSource.ofSettings settings.ids seed, settings := settings.compile }

def ofIds (ids : IdSource) : Editor := { ids }

def withGraph (editor : Editor) (graph : Graph) : Editor :=
  { editor with graph, selected := none }

/-! ### Fresh ids -/

def maxDraws : Nat := 64

def isFree (graph : Graph) (reserved : List String) (id : String) : Bool :=
  (graph.node? id).isNone && (graph.edge? id).isNone && id ∉ reserved

def drawFree (graph : Graph) (reserved : List String) :
    Nat → IdSource → Option String × IdSource
  | 0, source => (none, source)
  | draws + 1, source =>
      let (id, source) := source.next
      if isFree graph reserved id then (some id, source)
      else drawFree graph reserved draws source

def freshId (editor : Editor) (reserved : List String) : Except Error String × Editor :=
  let (id, ids) := drawFree editor.graph reserved maxDraws editor.ids
  let drawn := { editor with ids }
  match id with
  | some id => (.ok id, drawn)
  | none => (.error .idsExhausted, drawn)

/-! ### Actions -/

/-- The record of a dropped node: saved data of its kind, or an empty record. -/
def droppedData (kind : NodeKind) : Option Json → Except Error NodeData
  | none => .ok (NodeData.empty kind)
  | some saved => NodeData.ofJson kind saved

def dropNode (editor : Editor) (kind : NodeKind) (position : Position) (saved : Option Json) :
    Except Error NodeId × Editor :=
  match droppedData kind saved with
  | .error error => (.error error, editor)
  | .ok data =>
      match editor.freshId [] with
      | (.error error, drawn) => (.error error, drawn)
      | (.ok id, drawn) =>
          match drawn.graph.addNode { id, position, data } with
          | .error error => (.error error, drawn)
          | .ok graph => (.ok id, { drawn with graph })

def connect (editor : Editor) (connection : Connection) : Except Error Verdict × Editor :=
  match editor.freshId [] with
  | (.error error, drawn) => (.error error, drawn)
  | (.ok id, drawn) =>
      let (graph, verdict) := drawn.graph.addEdge connection id
      (.ok verdict, { drawn with graph })

def ignoreMissing : Except Error Graph → Except Error (Option Graph)
  | .ok graph => .ok (some graph)
  | .error error => if error.isNotFound then .ok none else .error error

def change (editor : Editor) (id : NodeId) (field value : String) : Except Error Unit × Editor :=
  match ignoreMissing (editor.graph.updateNode id field value) with
  | .error error => (.error error, editor)
  | .ok none => (.ok (), editor)
  | .ok (some graph) => (.ok (), { editor with graph })

def select (editor : Editor) (id : Option NodeId) : Editor :=
  { editor with selected := id.filter (fun id => (editor.graph.node? id).isSome) }

def deleteNode (editor : Editor) (id : NodeId) : Editor :=
  match editor.graph.removeNode id with
  | .error _ => editor
  | .ok graph =>
      { editor with
        graph
        selected := if editor.selected = some id then none else editor.selected }

def deleteSelected (editor : Editor) : Option NodeId × Editor :=
  match editor.selected with
  | none => (none, editor)
  | some id => (some id, { editor with selected := none }.deleteNode id)

def deleteEdge (editor : Editor) (id : EdgeId) : Editor :=
  match editor.graph.removeEdge id with
  | .error _ => editor
  | .ok graph => { editor with graph }

/-- Puts a new reroute into an edge and answers its id, or nothing where there is
no such edge.  Two ids are drawn in either case. -/
def splitEdge (editor : Editor) (id : EdgeId) (position : Position) :
    Except Error (Option NodeId) × Editor :=
  match editor.freshId [] with
  | (.error error, drawn) => (.error error, drawn)
  | (.ok reroute, drawn) =>
      match drawn.freshId [reroute] with
      | (.error error, drawn) => (.error error, drawn)
      | (.ok tail, drawn) =>
          let node : Node := { id := reroute, position, data := NodeData.empty .reroute }
          match ignoreMissing (drawn.graph.splitEdge id node tail) with
          | .error error => (.error error, drawn)
          | .ok none => (.ok none, drawn)
          | .ok (some graph) => (.ok (some reroute), { drawn with graph })

/-! ### Artifacts -/

def declarative (editor : Editor) : String := editor.graph.declarative editor.settings

def scaffold (editor : Editor) : String := editor.graph.scaffold editor.settings

/-! ### Saved graphs -/

def save (editor : Editor) (clock : Clock) (name title : String) : Script (Except Error Bool) :=
  Store.save clock name title editor.graph

def load (editor : Editor) (name : String) : Script (Except Error String × Editor) :=
  if Text.isBlankText name then .done (.error (.nameRequired "load"), editor)
  else
    (Store.load name).map fun
      | .error error => (.error error, editor)
      | .ok (title, graph) => (.ok title, editor.withGraph graph)

end Editor

end CrewCanvas
