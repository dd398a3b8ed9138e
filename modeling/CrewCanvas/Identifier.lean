/-
Identifiers of agents and tasks.

Agents and tasks share one namespace, in the order of the nodes.  The base of an
identifier is the sanitized name, or the name of the kind where that is empty.
A base that is reserved or taken gets the first suffix `_2`, `_3`, ... that makes
it free.
-/

import CrewCanvas.Graph.Basic

namespace CrewCanvas

structure Identifiers where
  entries : List (NodeId × String) := []
  deriving DecidableEq

namespace Identifiers

/-- The names that the scaffold itself defines or uses. -/
def reserved : List String :=
  ["agent", "task", "crew", "agents", "tasks", "agents_config", "tasks_config"]

def suffixed (base : String) (count : Nat) : String := base ++ "_" ++ toString count

/-- The base, or the base with its first free suffix.  Of as many suffixes as
there are taken names one is free, because the base is taken too. -/
def firstFree (taken : List String) (base : String) : String :=
  if base ∈ taken then
    (((List.range taken.length).map (fun step => suffixed base (step + 2))).find?
      (fun candidate => candidate ∉ taken)).getD base
  else base

def base (kind : NodeKind) (name : String) : String :=
  let sanitized := Text.sanitize name
  if sanitized.isEmpty then kind.name else sanitized

def assign (taken : List String) : List Node → List (NodeId × String)
  | [] => []
  | node :: rest =>
      match node.name? with
      | none => assign taken rest
      | some name =>
          let identifier := firstFree taken (base node.kind name)
          (node.id, identifier) :: assign (identifier :: taken) rest

def resolve (graph : Graph) : Identifiers := { entries := assign reserved graph.nodes }

def get? (identifiers : Identifiers) (id : NodeId) : Option String :=
  (identifiers.entries.find? (fun entry => entry.1 = id)).map Prod.snd

/-- The identifier of a node.  A node that was given none has its sanitized name. -/
def of (identifiers : Identifiers) (node : Node) : String :=
  (identifiers.get? node.id).getD (Text.sanitize (node.name?.getD ""))

end Identifiers

end CrewCanvas
