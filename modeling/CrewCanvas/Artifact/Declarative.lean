/-
The declarative artifact: the agents document and the tasks document.

Agents come in the order of the nodes with their role, goal and backstory.  Tasks
come in that order too, with their description, their expected output and the
identifier of their agent.
-/

import CrewCanvas.Graph.Feeders
import CrewCanvas.Identifier
import CrewCanvas.Settings.Basic
import CrewCanvas.Yaml.Document

namespace CrewCanvas

def noAgent : String := "None"

def AgentData.fields (data : AgentData) : Yaml.Fields :=
  [("role", data.role), ("goal", data.goal), ("backstory", data.backstory)]

def TaskData.fields (data : TaskData) (agent : String) : Yaml.Fields :=
  [("description", data.description), ("expected_output", data.expectedOutput), ("agent", agent)]

namespace Graph

def agentEntries (graph : Graph) (identifiers : Identifiers) : List (String × Yaml.Fields) :=
  graph.agents.filterMap (fun node =>
    node.agent?.map (fun data => (identifiers.of node, data.fields)))

def agentName (graph : Graph) (identifiers : Identifiers) (task : NodeId) : String :=
  match graph.agentFor? task with
  | some agent => identifiers.of agent
  | none => noAgent

def taskEntries (graph : Graph) (identifiers : Identifiers) : List (String × Yaml.Fields) :=
  graph.tasks.filterMap (fun node =>
    node.task?.map (fun data =>
      (identifiers.of node, data.fields (graph.agentName identifiers node.id))))

def agentsDocument (graph : Graph) (identifiers : Identifiers) : Yaml.Document :=
  Yaml.ofEntries (graph.agentEntries identifiers)

def tasksDocument (graph : Graph) (identifiers : Identifiers) : Yaml.Document :=
  Yaml.ofEntries (graph.taskEntries identifiers)

def declarative (graph : Graph) (settings : CompileSettings) : String :=
  let identifiers := Identifiers.resolve graph
  "# " ++ settings.agentsPath ++ "\n" ++ (graph.agentsDocument identifiers).toText ++ "---\n# " ++
    settings.tasksPath ++ "\n" ++ (graph.tasksDocument identifiers).toText

end Graph

end CrewCanvas
