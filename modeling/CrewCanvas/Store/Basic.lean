/-
Collections of saved graphs, and scripts of calls on them.

A collection is a finite map from names to saved graphs.  Each call of a
collection is one step, and may fail when its method is down.  What the store
does is a script: calls whose answers decide how it goes on.  Scripts of several
users can so be interleaved call by call.
-/

import CrewCanvas.Record.Basic
import Std.Data.ExtTreeMap

namespace CrewCanvas

abbrev Records := Std.ExtTreeMap String SavedGraph

inductive Method
  | has
  | find
  | list
  | create
  | update
  | delete
  deriving DecidableEq

namespace Method

def all : List Method := [has, find, list, create, update, delete]

def label : Method → String
  | has => "exists"
  | find => "find"
  | list => "list"
  | create => "create"
  | update => "update"
  | delete => "delete"

end Method

inductive Call
  | has (name : String)
  | find (name : String)
  | list
  | create (saved : SavedGraph)
  | update (saved : SavedGraph)
  | delete (name : String)

namespace Call

def method : Call → Method
  | has _ => .has
  | find _ => .find
  | list => .list
  | create _ => .create
  | update _ => .update
  | delete _ => .delete

def Answer : Call → Type
  | has _ => Bool
  | find _ => SavedGraph
  | list => List String
  | create _ => Bool
  | update _ => Bool
  | delete _ => Bool

/-- A call on a collection whose methods are all up.  A record is created only
where its name is absent, and updated only where it is present. -/
def perform (records : Records) : (call : Call) → Except Error call.Answer × Records
  | has name => (.ok (records.contains name), records)
  | find name =>
      match records[name]? with
      | some saved => (.ok saved, records)
      | none => (.error (.savedMissing name), records)
  | list => (.ok records.keys, records)
  | create saved =>
      if records.contains saved.name then (.ok false, records)
      else (.ok true, records.insert saved.name saved)
  | update saved =>
      if records.contains saved.name then (.ok true, records.insert saved.name saved)
      else (.ok false, records)
  | delete name => (.ok (records.contains name), records.erase name)

def run (down : List Method) (records : Records) (call : Call) :
    Except Error call.Answer × Records :=
  if call.method ∈ down then (.error (.unavailable call.method.label), records)
  else call.perform records

end Call

/-- Calls of a collection, each decided by the answers before it. -/
inductive Script (α : Type)
  | done (result : α)
  | call (call : Call) (next : Except Error call.Answer → Script α)

namespace Script

def ofCall (call : Call) : Script (Except Error call.Answer) := .call call .done

def map {α β : Type} (f : α → β) : Script α → Script β
  | done result => done (f result)
  | call step next => call step (fun answer => (next answer).map f)

def run {α : Type} (down : List Method) (records : Records) : Script α → α × Records
  | done result => (result, records)
  | call step next =>
      match step.run down records with
      | (answer, records) => (next answer).run down records

end Script

end CrewCanvas
