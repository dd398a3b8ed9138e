/-
Saving and loading graphs by name.

A save asks whether its name is there, and creates a record or replaces the one
it finds; the time of the first save is kept.  The times are readings of a clock:
one when the save starts and one when it replaces.
-/

import CrewCanvas.Store.Basic

namespace CrewCanvas

/-- The readings of the clock during a save, in milliseconds. -/
structure Clock where
  start : Int
  replace : Int

namespace Store

def firstSave (clock : Clock) (name title : String) (graph : Graph) : SavedGraph :=
  let record := GraphRecord.ofGraph graph
  { name, title
    nodes := record.nodes
    edges := record.edges
    createTime := clock.start
    updateTime := 0 }

def save (clock : Clock) (name title : String) (graph : Graph) : Script (Except Error Bool) :=
  if Text.isBlankText name then .done (.error (.nameRequired "save"))
  else
    let saved := firstSave clock name title graph
    .call (.has name) fun
      | .error error => .done (.error error)
      | .ok false => .ofCall (.create saved)
      | .ok true =>
          .call (.find name) fun
            | .error error => .done (.error error)
            | .ok old =>
                .ofCall (.update
                  { saved with createTime := old.createTime, updateTime := clock.replace })

def load (name : String) : Script (Except Error (String × Graph)) :=
  .call (.find name) fun
    | .error error => .done (.error error)
    | .ok saved => .done (saved.record.toGraph.map (fun graph => (saved.title, graph)))

def list : Script (Except Error (List String)) := .ofCall .list

def delete (name : String) : Script (Except Error Bool) := .ofCall (.delete name)

end Store

end CrewCanvas
