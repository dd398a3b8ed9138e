/-
Nodes of a crew graph.

A node is an id, a place on the canvas and a data record whose shape is fixed by
the kind of the node.
-/

import CrewCanvas.Error

namespace CrewCanvas

abbrev NodeId := String

inductive NodeKind
  | begin
  | agent
  | task
  | reroute
  deriving DecidableEq

namespace NodeKind

def all : List NodeKind := [begin, agent, task, reroute]

def name : NodeKind → String
  | begin => "begin"
  | agent => "agent"
  | task => "task"
  | reroute => "reroute"

def ofName? (name : String) : Option NodeKind :=
  all.find? (fun kind => kind.name = name)

end NodeKind

/-- What a line carries: control flow, or the assignment of an agent.  A reroute
claims one of the two from its first line. -/
inductive LineKind
  | execution
  | agent
  deriving DecidableEq

namespace LineKind

def all : List LineKind := [execution, agent]

def name : LineKind → String
  | execution => "execution"
  | agent => "agent"

def ofName? (name : String) : Option LineKind :=
  all.find? (fun kind => kind.name = name)

end LineKind

structure Position where
  x : Binary64 := Binary64.zero
  y : Binary64 := Binary64.zero
  deriving DecidableEq

namespace Position

def origin : Position := {}

def numEq (left right : Position) : Bool :=
  left.x.numEq right.x && left.y.numEq right.y

end Position

structure AgentData where
  name : String := ""
  role : String := ""
  goal : String := ""
  backstory : String := ""
  /-- Tool names, separated by commas. -/
  tools : String := ""
  deriving DecidableEq

def AgentData.toolNames (data : AgentData) : List String :=
  (Text.commaTokens data.tools.toList).map String.ofList

structure TaskData where
  name : String := ""
  description : String := ""
  expectedOutput : String := ""
  deriving DecidableEq

inductive NodeData
  | begin
  | agent (data : AgentData)
  | task (data : TaskData)
  | reroute (claimed : Option LineKind)
  deriving DecidableEq

namespace NodeData

def empty : NodeKind → NodeData
  | .begin => begin
  | .agent => agent {}
  | .task => task {}
  | .reroute => reroute none

def kind : NodeData → NodeKind
  | begin => .begin
  | agent _ => .agent
  | task _ => .task
  | reroute _ => .reroute

@[simp] theorem kind_empty (kind : NodeKind) : (empty kind).kind = kind := by
  cases kind <;> rfl

def setAgentField (data : AgentData) (field value : String) : Option AgentData :=
  if field = "name" then some { data with name := value }
  else if field = "role" then some { data with role := value }
  else if field = "goal" then some { data with goal := value }
  else if field = "backstory" then some { data with backstory := value }
  else if field = "tools" then some { data with tools := value }
  else none

def setTaskField (data : TaskData) (field value : String) : Option TaskData :=
  if field = "name" then some { data with name := value }
  else if field = "description" then some { data with description := value }
  else if field = "expected_output" then some { data with expectedOutput := value }
  else none

/-- Sets one text field and leaves the others; a claim is no text field. -/
def setField? (data : NodeData) (field value : String) : Option NodeData :=
  match data with
  | agent data => (setAgentField data field value).map agent
  | task data => (setTaskField data field value).map task
  | _ => none

def setField (data : NodeData) (field value : String) : Except Error NodeData :=
  match data.setField? field value with
  | some changed => .ok changed
  | none => .error (.noField data.kind.name field)

/-- Claims a reroute for a kind of line; the first claim stands. -/
def claim (data : NodeData) (line : LineKind) : NodeData :=
  match data with
  | reroute none => reroute (some line)
  | data => data

def name? : NodeData → Option String
  | agent data => some data.name
  | task data => some data.name
  | _ => none

def claimed? : NodeData → Option LineKind
  | reroute claimed => claimed
  | _ => none

theorem setField_eq_ok_iff {data changed : NodeData} {field value : String} :
    data.setField field value = .ok changed ↔ data.setField? field value = some changed := by
  unfold setField
  cases data.setField? field value <;> simp

theorem kind_of_setField? {data changed : NodeData} {field value : String}
    (set : data.setField? field value = some changed) : changed.kind = data.kind := by
  cases data <;> simp only [setField?, Option.map_eq_some_iff, reduceCtorEq] at set <;>
    obtain ⟨_, _, rfl⟩ := set <;> rfl

theorem claimed?_of_setField? {data changed : NodeData} {field value : String}
    (set : data.setField? field value = some changed) : changed.claimed? = data.claimed? := by
  cases data <;> simp only [setField?, Option.map_eq_some_iff, reduceCtorEq] at set <;>
    obtain ⟨_, _, rfl⟩ := set <;> rfl

@[simp] theorem kind_claim (data : NodeData) (line : LineKind) :
    (data.claim line).kind = data.kind := by
  unfold claim
  split <;> rfl

end NodeData

structure Node where
  id : NodeId
  position : Position := {}
  data : NodeData
  deriving DecidableEq

namespace Node

def plain (kind : NodeKind) (id : NodeId) : Node :=
  { id, data := NodeData.empty kind }

def kind (node : Node) : NodeKind := node.data.kind

def name? (node : Node) : Option String := node.data.name?

def claimed? (node : Node) : Option LineKind := node.data.claimed?

def agent? (node : Node) : Option AgentData :=
  match node.data with
  | .agent data => some data
  | _ => none

def task? (node : Node) : Option TaskData :=
  match node.data with
  | .task data => some data
  | _ => none

def numEq (left right : Node) : Bool :=
  left.id == right.id && left.position.numEq right.position && left.data = right.data

theorem exists_agent {node : Node} (kind : node.kind = .agent) :
    ∃ data, node.agent? = some data := by
  obtain ⟨id, position, data⟩ := node
  cases data with
  | agent data => exact ⟨data, rfl⟩
  | _ => cases kind

theorem exists_task {node : Node} (kind : node.kind = .task) :
    ∃ data, node.task? = some data := by
  obtain ⟨id, position, data⟩ := node
  cases data with
  | task data => exact ⟨data, rfl⟩
  | _ => cases kind

theorem kind_of_claimed? {node : Node} {line : LineKind} (claimed : node.claimed? = some line) :
    node.kind = .reroute := by
  obtain ⟨id, position, data⟩ := node
  cases data with
  | reroute _ => rfl
  | _ => cases claimed

theorem claimed?_eq_none {node : Node} (kind : node.kind ≠ .reroute) : node.claimed? = none := by
  cases claimed : node.claimed? with
  | none => rfl
  | some line => exact absurd (kind_of_claimed? claimed) kind

end Node

end CrewCanvas
