/-
The executable artifact: a Python module that defines the crew.

It has one factory for each agent in the order of the nodes, one for each task in
the order of the task sequence, and a crew of all of them.  Its lines are built as
a list, each from identifiers and literals that hold no line break.
-/

import CrewCanvas.Artifact.Literal
import CrewCanvas.Graph.Feeders
import CrewCanvas.Identifier
import CrewCanvas.Settings.Basic

namespace CrewCanvas

namespace Scaffold

def indented (level : Nat) (line : String) : String :=
  String.ofList (List.replicate (4 * level) ' ') ++ line

def truth (value : Bool) : String := if value then "True" else "False"

def toolIdentifiers (data : AgentData) : List String := data.toolNames.map Text.sanitize

/-- Keeps the first of equal texts. -/
def distinct (seen : List String) : List String → List String
  | [] => []
  | text :: rest =>
      if text ∈ seen then distinct seen rest else text :: distinct (text :: seen) rest

def calls (identifiers : List String) : String :=
  Text.joinWith ", " (identifiers.map (fun identifier => "self." ++ identifier ++ "()"))

def verboseLine (verbose : Bool) : String := indented 3 ("verbose=" ++ truth verbose ++ ",")

def importedTools (graph : Graph) : List String :=
  distinct [] ((graph.agents.filterMap Node.agent?).flatMap toolIdentifiers)

def importLines (tools : List String) : List String :=
  ["from crewai import Agent, Crew, Process, Task",
    "from crewai.project import CrewBase, agent, crew, task"] ++
  (if tools.isEmpty then [] else ["from crewai_tools import " ++ Text.joinWith ", " tools]) ++
  ["", ""]

def classLines (settings : CompileSettings) : List String :=
  let className := Text.sanitize settings.crewName
  ["@CrewBase",
    "class " ++ className ++ ":",
    indented 1 ("\"\"\"" ++ className ++ " crew\"\"\""),
    "",
    indented 1 ("agents_config = " ++ Literal.ofText settings.agentsPath),
    indented 1 ("tasks_config = " ++ Literal.ofText settings.tasksPath)]

def agentLines (verbose : Bool) (identifier : String) (tools : List String) : List String :=
  ["",
    indented 1 "@agent",
    indented 1 ("def " ++ identifier ++ "(self) -> Agent:"),
    indented 2 "return Agent(",
    indented 3 ("config=self.agents_config[" ++ Literal.ofText identifier ++ "],"),
    indented 3 ("tools=[" ++ Text.joinWith ", " (tools.map (fun tool => tool ++ "()")) ++ "],"),
    verboseLine verbose,
    indented 2 ")"]

def taskLines (identifier : String) (context : List String) : List String :=
  ["",
    indented 1 "@task",
    indented 1 ("def " ++ identifier ++ "(self) -> Task:"),
    indented 2 "return Task(",
    indented 3 ("config=self.tasks_config[" ++ Literal.ofText identifier ++ "],"),
    indented 3 ("output_file=" ++ Literal.ofText (identifier ++ ".md") ++ ",")] ++
  (if context.isEmpty then [] else [indented 3 ("context=[" ++ calls context ++ "],")]) ++
  [indented 2 ")"]

def crewLines (verbose : Bool) (agents tasks : List String) : List String :=
  ["",
    indented 1 "@crew",
    indented 1 "def crew(self) -> Crew:",
    indented 2 "return Crew(",
    indented 3 ("agents=[" ++ calls agents ++ "],"),
    indented 3 ("tasks=[" ++ calls tasks ++ "],"),
    indented 3 "process=Process.sequential,",
    verboseLine verbose,
    indented 2 ")",
    ""]

def sequencedTasks (graph : Graph) : List Node := graph.sequence.filterMap graph.node?

def lines (graph : Graph) (settings : CompileSettings) : List String :=
  let identifiers := Identifiers.resolve graph
  let agents := graph.agents.filterMap (fun node => node.agent?.map (fun data => (node, data)))
  let tasks := sequencedTasks graph
  importLines (importedTools graph) ++
  classLines settings ++
  agents.flatMap (fun (node, data) =>
    agentLines settings.verbose (identifiers.of node) (toolIdentifiers data)) ++
  tasks.flatMap (fun node =>
    taskLines (identifiers.of node) ((graph.predecessors node.id).map identifiers.of)) ++
  crewLines settings.verbose
    (agents.map (fun (node, _) => identifiers.of node)) (tasks.map identifiers.of)

end Scaffold

def Graph.scaffold (graph : Graph) (settings : CompileSettings) : String :=
  Text.joinWith "\n" (Scaffold.lines graph settings)

end CrewCanvas
