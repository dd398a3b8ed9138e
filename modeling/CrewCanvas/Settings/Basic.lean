/-
Settings: how a crew is compiled and where ids come from.
-/

namespace CrewCanvas

structure CompileSettings where
  /-- The class of the generated crew, before it is sanitized. -/
  crewName : String := "GeneratedCrew"
  agentsPath : String := "config/agents.yaml"
  tasksPath : String := "config/tasks.yaml"
  verbose : Bool := true
  deriving DecidableEq

inductive IdStrategy
  | sequential
  | nanoid
  | uuid
  deriving DecidableEq

namespace IdStrategy

def all : List IdStrategy := [sequential, nanoid, uuid]

def name : IdStrategy → String
  | sequential => "sequential"
  | nanoid => "nanoid"
  | uuid => "uuid"

def ofName? (name : String) : Option IdStrategy :=
  all.find? (fun strategy => strategy.name = name)

end IdStrategy

structure IdSettings where
  strategy : IdStrategy := .sequential
  lead : String := "node_"
  deriving DecidableEq

structure Settings where
  compile : CompileSettings := {}
  ids : IdSettings := {}
  deriving DecidableEq

end CrewCanvas
