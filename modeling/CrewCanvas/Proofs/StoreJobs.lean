/-
Saves and deletions, call by call.

A call of the store writes at most once: it puts a record under its name or erases a name.
A save asks before it writes, and what it has asked may be out of date by then.  Its last
call decides alone, so its answer says what it has written, whatever the collection holds
at each of its calls.
-/

import CrewCanvas.Proofs.StoreRequests

namespace CrewCanvas

/-! ### Writes -/

inductive Write
  | put (saved : SavedGraph)
  | erase (name : String)

namespace Write

def name : Write → String
  | put saved => saved.name
  | erase name => name

def content : Write → Option SavedGraph
  | put saved => some saved
  | erase _ => none

end Write

def replay (contents : Contents) (writes : List Write) : Contents :=
  writes.foldl (fun contents write => Function.update contents write.name write.content) contents

namespace Call

/-- The write of a call that is served, if it makes one.  A creation writes where its name
is absent, an update where it is present. -/
def served (before : Contents) : Call → List Write
  | create saved =>
      match before saved.name with
      | none => [.put saved]
      | some _ => []
  | update saved =>
      match before saved.name with
      | none => []
      | some _ => [.put saved]
  | delete name => [.erase name]
  | _ => []

def writes (down : List Method) (before : Contents) (call : Call) : List Write :=
  if call.method ∈ down then [] else call.served before

theorem writes_down {down : List Method} {call : Call} (failing : call.method ∈ down)
    (before : Contents) : call.writes down before = [] :=
  if_pos failing

theorem writes_up {down : List Method} {call : Call} (working : call.method ∉ down)
    (before : Contents) : call.writes down before = call.served before :=
  if_neg working

inductive Puts (saved : SavedGraph) (records : Records) :
    Except Error Bool × Records → List Write → Prop
  | failed {error : Error} : Puts saved records (.error error, records) []
  | refused : Puts saved records (.ok false, records) []
  | done : Puts saved records (.ok true, records.insert saved.name saved) [.put saved]

section Puts

variable (down : List Method) (records : Records) (saved : SavedGraph)

theorem puts_create :
    Puts saved records ((create saved).run down records)
      ((create saved).writes down (contentsOf records)) := by
  by_cases failing : method (create saved) ∈ down
  · rw [run_down failing, writes_down failing]
    exact Puts.failed
  · rw [run_up failing, writes_up failing]
    cases found : contentsOf records saved.name with
    | none =>
        rw [perform_create_absent found]
        simp only [served, found]
        exact Puts.done
    | some old =>
        rw [perform_create_present (by simp [found])]
        simp only [served, found]
        exact Puts.refused

theorem puts_update :
    Puts saved records ((update saved).run down records)
      ((update saved).writes down (contentsOf records)) := by
  by_cases failing : method (update saved) ∈ down
  · rw [run_down failing, writes_down failing]
    exact Puts.failed
  · rw [run_up failing, writes_up failing]
    cases found : contentsOf records saved.name with
    | none =>
        rw [perform_update_absent found]
        simp only [served, found]
        exact Puts.refused
    | some old =>
        rw [perform_update_present (by simp [found])]
        simp only [served, found]
        exact Puts.done

end Puts

theorem Puts.contents {saved : SavedGraph} {records : Records}
    {outcome : Except Error Bool × Records} {writes : List Write}
    (puts : Puts saved records outcome writes) :
    contentsOf outcome.2 = replay (contentsOf records) writes := by
  cases puts with
  | failed => rfl
  | refused => rfl
  | done => exact contentsOf_insert records saved.name saved

/-- The contents after a call are the contents before it with its write. -/
theorem contents_run (down : List Method) (records : Records) (call : Call) :
    contentsOf (call.run down records).2 =
      replay (contentsOf records) (call.writes down (contentsOf records)) := by
  by_cases failing : call.method ∈ down
  · rw [run_down failing, writes_down failing]
    rfl
  · cases call with
    | create saved => exact (puts_create down records saved).contents
    | update saved => exact (puts_update down records saved).contents
    | has name =>
        rw [run_up failing, writes_up failing]
        rfl
    | list =>
        rw [run_up failing, writes_up failing]
        rfl
    | delete name =>
        rw [run_up failing, writes_up failing]
        exact contentsOf_erase records name
    | find name =>
        rw [run_up failing, writes_up failing]
        cases found : contentsOf records name with
        | none =>
            rw [perform_find_absent found]
            rfl
        | some saved =>
            rw [perform_find_present found]
            rfl

end Call

/-! ### Jobs -/

inductive Job
  | save (clock : Clock) (name title : String) (graph : Graph)
  | delete (name : String)

/-- A record that a save may write: its own name and title, and the nodes and edges of its
graph. -/
structure Store.SavedAs (name title : String) (graph : Graph) (saved : SavedGraph) : Prop where
  name : saved.name = name
  title : saved.title = title
  record : saved.record = GraphRecord.ofGraph graph

namespace Job

def name : Job → String
  | save _ name _ _ => name
  | delete name => name

def script : Job → Script (Except Error Bool)
  | save clock name title graph => Store.save clock name title graph
  | delete name => Store.delete name

inductive Settled : Job → Except Error Bool → List Write → Prop
  | saved {clock : Clock} {name title : String} {graph : Graph} {record : SavedGraph} :
      Store.SavedAs name title graph record →
        Settled (save clock name title graph) (.ok true) [.put record]
  | lost {clock : Clock} {name title : String} {graph : Graph} :
      Settled (save clock name title graph) (.ok false) []
  | erased {name : String} {present : Bool} : Settled (delete name) (.ok present) [.erase name]
  | failed {job : Job} {error : Error} : Settled job (.error error) []

theorem Settled.name_of_mem {job : Job} {answer : Except Error Bool} {writes : List Write}
    (settled : job.Settled answer writes) {write : Write} (member : write ∈ writes) :
    write.name = job.name := by
  cases settled with
  | saved own =>
      rw [List.mem_singleton.mp member]
      exact own.name
  | erased => rw [List.mem_singleton.mp member]; rfl
  | lost => cases member
  | failed => cases member

theorem Settled.save_iff {clock : Clock} {name title : String} {graph : Graph}
    {answer : Except Error Bool} {writes : List Write}
    (settled : (save clock name title graph).Settled answer writes) :
    (answer = .ok true ↔
      ∃ record, Store.SavedAs name title graph record ∧ writes = [.put record]) ∧
    (answer ≠ .ok true → writes = []) := by
  cases settled with
  | @saved _ _ _ _ record own => exact ⟨iff_of_true rfl ⟨record, own, rfl⟩, absurd rfl⟩
  | lost => simp
  | failed => simp

theorem Settled.delete_eq {name : String} {answer : Except Error Bool} {writes : List Write}
    (settled : (delete name).Settled answer writes) :
    writes = if answer.isOk then [.erase name] else [] := by
  cases settled with
  | erased => rfl
  | failed => rfl

/-- The rest of a job accounts for the writes so far: nothing was written while a call is
left, and the answer fits the writes, whatever the collection holds at each call. -/
def Accounts (job : Job) : List Write → Script (Except Error Bool) → Prop
  | writes, .done answer => job.Settled answer writes
  | writes, .call step next =>
      writes = [] ∧ ∀ down records,
        job.Accounts (step.writes down (contentsOf records)) (next (step.run down records).1)

theorem settled_of_puts {clock : Clock} {name title : String} {graph : Graph}
    {saved : SavedGraph} (own : Store.SavedAs name title graph saved) {records : Records}
    {outcome : Except Error Bool × Records} {writes : List Write}
    (puts : Call.Puts saved records outcome writes) :
    (save clock name title graph).Settled outcome.1 writes := by
  cases puts with
  | failed => exact Settled.failed
  | refused => exact Settled.lost
  | done => exact Settled.saved own

/-- What a save has asked may be out of date, but its last call decides alone. -/
theorem accounts_save (clock : Clock) (name title : String) (graph : Graph) :
    (save clock name title graph).Accounts [] (Store.save clock name title graph) := by
  unfold Store.save
  split
  · exact Settled.failed
  · refine ⟨rfl, ?_⟩
    intro down records
    have asks : (Call.has name).writes down (contentsOf records) = [] := ite_self []
    rw [asks]
    generalize ((Call.has name).run down records).1 = answer
    cases answer with
    | error error => exact Settled.failed
    | ok present =>
        cases present with
        | false =>
            refine ⟨rfl, ?_⟩
            intro down records
            refine settled_of_puts ?_ (Call.puts_create down records _)
            exact ⟨rfl, rfl, rfl⟩
        | true =>
            refine ⟨rfl, ?_⟩
            intro down records
            have reads : (Call.find name).writes down (contentsOf records) = [] := ite_self []
            rw [reads]
            generalize ((Call.find name).run down records).1 = answer
            cases answer with
            | error error => exact Settled.failed
            | ok old =>
                refine ⟨rfl, ?_⟩
                intro down records
                refine settled_of_puts ?_ (Call.puts_update down records _)
                exact ⟨rfl, rfl, rfl⟩

theorem accounts_delete (name : String) :
    (delete name).Accounts [] (Store.delete name) := by
  refine ⟨rfl, ?_⟩
  intro down records
  by_cases failing : Call.method (.delete name) ∈ down
  · rw [Call.writes_down failing, Call.run_down failing]
    exact Settled.failed
  · rw [Call.run_up failing, Call.writes_up failing]
    exact Settled.erased

theorem accounts_script (job : Job) : job.Accounts [] job.script := by
  cases job with
  | save clock name title graph => exact accounts_save clock name title graph
  | delete name => exact accounts_delete name

/-! ### The calls of a job -/

end Job

def Script.EndsWithin {α : Type} : Nat → Script α → Prop
  | _, .done _ => True
  | 0, .call _ _ => False
  | calls + 1, .call _ next => ∀ answer, (next answer).EndsWithin calls

theorem Script.endsWithin_of_le {α : Type} {few many : Nat} (le : few ≤ many)
    {script : Script α} (ends : script.EndsWithin few) : script.EndsWithin many := by
  induction script generalizing few many with
  | done result => cases many <;> trivial
  | call step next ih =>
      cases few with
      | zero => cases ends
      | succ few =>
          cases many with
          | zero => cases le
          | succ many => exact fun answer => ih answer (Nat.le_of_succ_le_succ le) (ends answer)

theorem Job.endsWithin_script (job : Job) : job.script.EndsWithin 3 := by
  cases job with
  | delete name => exact fun _ => trivial
  | save clock name title graph =>
      change (Store.save clock name title graph).EndsWithin 3
      unfold Store.save
      split
      · trivial
      · intro answer
        cases answer with
        | error error => trivial
        | ok present =>
            cases present with
            | false => exact fun _ => trivial
            | true =>
                intro answer
                cases answer with
                | error error => trivial
                | ok old => exact fun _ => trivial

end CrewCanvas
