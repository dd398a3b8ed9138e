/-
The store as a map from names to saved graphs.

A request is a save, a load, a listing or a deletion, or a call on the collection behind
the store.  Any methods of the collection may be down while it is served; as a save calls
no method twice, this covers a failure at each of its calls.  A request that fails leaves
the map, and one that is served changes it at its own name alone.
-/

import CrewCanvas.Proofs.StoreRun
import Mathlib.Data.String.Basic
import Mathlib.Logic.Function.Basic

namespace CrewCanvas

/-! ### Contents -/

abbrev Contents := String → Option SavedGraph

def contentsOf (records : Records) : Contents := fun name => records[name]?

theorem contentsOf_insert (records : Records) (name : String) (saved : SavedGraph) :
    contentsOf (records.insert name saved) =
      Function.update (contentsOf records) name (some saved) := by
  funext other
  unfold contentsOf
  rw [Std.ExtTreeMap.getElem?_insert, Function.update_apply]
  by_cases same : name = other
  · simp [same]
  · simp [same, Ne.symm same]

theorem contentsOf_erase (records : Records) (name : String) :
    contentsOf (records.erase name) = Function.update (contentsOf records) name none := by
  funext other
  unfold contentsOf
  rw [Std.ExtTreeMap.getElem?_erase, Function.update_apply]
  by_cases same : name = other
  · simp [same]
  · simp [same, Ne.symm same]

theorem contains_iff {records : Records} {name : String} :
    records.contains name = true ↔ contentsOf records name ≠ none := by
  rw [Std.ExtTreeMap.contains_eq_isSome_getElem?, Option.isSome_iff_ne_none]
  rfl

/-! ### What is asked of a store -/

inductive Request
  | save (clock : Clock) (name title : String) (graph : Graph)
  | load (name : String)
  | list
  | delete (name : String)
  | call (step : Call)

namespace Request

def Answer : Request → Type
  | save _ _ _ _ => Bool
  | load _ => String × Graph
  | list => List String
  | delete _ => Bool
  | call step => step.Answer

def script : (request : Request) → Script (Except Error request.Answer)
  | save clock name title graph => Store.save clock name title graph
  | load name => Store.load name
  | list => Store.list
  | delete name => Store.delete name
  | call step => .ofCall step

end Request

/-! ### What a request may fail of -/

inductive Call.Fault (down : List Method) (before : Contents) : Call → Error → Prop
  | down {call : Call} :
      call.method ∈ down → Fault down before call (.unavailable call.method.label)
  | absent {name : String} :
      before name = none → Fault down before (.find name) (.savedMissing name)

def Store.saveMethods : Option SavedGraph → List Method
  | none => [.has, .create]
  | some _ => [.has, .find, .update]

inductive Store.SaveFault (down : List Method) (name : String) (before : Contents) : Error → Prop
  | blank : Text.isBlankText name = true → SaveFault down name before (.nameRequired "save")
  | down {method : Method} : method ∈ saveMethods (before name) → method ∈ down →
      SaveFault down name before (.unavailable method.label)

inductive Store.LoadFault (down : List Method) (name : String) (before : Contents) : Error → Prop
  | unfound {error : Error} :
      Call.Fault down before (.find name) error → LoadFault down name before error
  | unread {saved : SavedGraph} {error : Error} :
      before name = some saved → saved.record.toGraph = .error error →
        LoadFault down name before error

def Request.Fault (down : List Method) (before : Contents) : Request → Error → Prop
  | .save _ name _ _ => Store.SaveFault down name before
  | .load name => Store.LoadFault down name before
  | .list => Call.Fault down before .list
  | .delete name => Call.Fault down before (.delete name)
  | .call step => step.Fault down before

/-! ### What a request does -/

def Call.Effect (before after : Contents) : (call : Call) → call.Answer → Prop
  | .has name, (present : Bool) => (present = true ↔ before name ≠ none) ∧ after = before
  | .find name, (saved : SavedGraph) => before name = some saved ∧ after = before
  | .list, (names : List String) =>
      (names.Pairwise (· < ·) ∧ ∀ name, name ∈ names ↔ before name ≠ none) ∧ after = before
  | .create saved, (created : Bool) =>
      (created = true ↔ before saved.name = none) ∧
        after = if created then Function.update before saved.name (some saved) else before
  | .update saved, (updated : Bool) =>
      (updated = true ↔ before saved.name ≠ none) ∧
        after = if updated then Function.update before saved.name (some saved) else before
  | .delete name, (deleted : Bool) =>
      (deleted = true ↔ before name ≠ none) ∧ after = Function.update before name none

structure Store.SavedOver (clock : Clock) (name title : String) (graph : Graph)
    (old : Option SavedGraph) (saved : SavedGraph) : Prop where
  name : saved.name = name
  title : saved.title = title
  record : saved.record = GraphRecord.ofGraph graph
  first : old = none → saved.createTime = clock.start ∧ saved.updateTime = 0
  again : ∀ before, old = some before →
    saved.createTime = before.createTime ∧ saved.updateTime = clock.replace

def Store.SaveEffect (clock : Clock) (name title : String) (graph : Graph)
    (before after : Contents) (done : Bool) : Prop :=
  done = true ∧ ∃ saved, SavedOver clock name title graph (before name) saved ∧
    after = Function.update before name (some saved)

def Store.LoadEffect (name : String) (before after : Contents) (answer : String × Graph) : Prop :=
  (∃ saved, before name = some saved ∧ saved.title = answer.1 ∧
    saved.record.toGraph = .ok answer.2) ∧ after = before

def Request.Effect (before after : Contents) : (request : Request) → request.Answer → Prop
  | .save clock name title graph => Store.SaveEffect clock name title graph before after
  | .load name => Store.LoadEffect name before after
  | .list => Call.Effect before after .list
  | .delete name => Call.Effect before after (.delete name)
  | .call step => step.Effect before after

/-- An outcome on a collection.  An error has a cause and leaves the contents; with no
cause to fail there is an answer, with its effect. -/
inductive Obeys {α : Type} (fault : Error → Prop) (before : Contents)
    (effect : Contents → α → Prop) : Except Error α × Records → Prop
  | failed {error : Error} {records : Records} :
      fault error → contentsOf records = before →
        Obeys fault before effect (.error error, records)
  | served {answer : α} {records : Records} :
      (∀ error, ¬fault error) → effect (contentsOf records) answer →
        Obeys fault before effect (.ok answer, records)

/-! ### One request -/

section Call

variable {down : List Method} {records : Records} {saved : SavedGraph} {name : String}

theorem perform_find_absent (absent : contentsOf records name = none) :
    Call.perform records (.find name) = (.error (.savedMissing name), records) := by
  change records[name]? = none at absent
  simp only [Call.perform, absent]

theorem perform_find_present (present : contentsOf records name = some saved) :
    Call.perform records (.find name) = (.ok saved, records) := by
  change records[name]? = some saved at present
  simp only [Call.perform, present]

theorem perform_create_absent (absent : contentsOf records saved.name = none) :
    Call.perform records (.create saved) = (.ok true, records.insert saved.name saved) :=
  if_neg (fun present => contains_iff.mp present absent)

theorem perform_create_present (present : contentsOf records saved.name ≠ none) :
    Call.perform records (.create saved) = (.ok false, records) :=
  if_pos (contains_iff.mpr present)

theorem perform_update_absent (absent : contentsOf records saved.name = none) :
    Call.perform records (.update saved) = (.ok false, records) :=
  if_neg (fun present => contains_iff.mp present absent)

theorem perform_update_present (present : contentsOf records saved.name ≠ none) :
    Call.perform records (.update saved) = (.ok true, records.insert saved.name saved) :=
  if_pos (contains_iff.mpr present)

theorem Call.obeys_perform {call : Call} (working : call.method ∉ down) :
    Obeys (call.Fault down (contentsOf records)) (contentsOf records)
      (call.Effect (contentsOf records)) (call.perform records) := by
  have healthy (present : ∀ name, call = .find name → contentsOf records name ≠ none)
      (error : Error) : ¬call.Fault down (contentsOf records) error := by
    intro fault
    cases fault with
    | down isDown => exact working isDown
    | absent missing => exact present _ rfl missing
  cases call with
  | has name => exact Obeys.served (healthy (by simp)) ⟨contains_iff, rfl⟩
  | find name =>
      cases found : contentsOf records name with
      | none =>
          rw [perform_find_absent found]
          exact Obeys.failed (Fault.absent found) rfl
      | some saved =>
          rw [perform_find_present found]
          refine Obeys.served (healthy ?_) ⟨found, rfl⟩
          intro other same
          cases same
          simp [found]
  | list =>
      refine Obeys.served (healthy (by simp)) ⟨⟨?_, ?_⟩, rfl⟩
      · exact Std.ExtTreeMap.ordered_keys.imp compare_lt_iff_lt.mp
      · intro name
        rw [Std.ExtTreeMap.mem_keys, ← Std.ExtTreeMap.contains_iff_mem]
        exact contains_iff
  | create saved =>
      by_cases absent : contentsOf records saved.name = none
      · rw [perform_create_absent absent]
        exact Obeys.served (healthy (by simp))
          ⟨by simp [absent], contentsOf_insert records saved.name saved⟩
      · rw [perform_create_present absent]
        exact Obeys.served (healthy (by simp)) ⟨by simp [absent], rfl⟩
  | update saved =>
      by_cases absent : contentsOf records saved.name = none
      · rw [perform_update_absent absent]
        exact Obeys.served (healthy (by simp)) ⟨by simp [absent], rfl⟩
      · rw [perform_update_present absent]
        exact Obeys.served (healthy (by simp))
          ⟨by simp [absent], contentsOf_insert records saved.name saved⟩
  | delete name =>
      exact Obeys.served (healthy (by simp)) ⟨contains_iff, contentsOf_erase records name⟩

theorem Call.run_down {call : Call} (failing : call.method ∈ down) :
    call.run down records = (.error (.unavailable call.method.label), records) :=
  if_pos failing

theorem Call.run_up {call : Call} (working : call.method ∉ down) :
    call.run down records = call.perform records :=
  if_neg working

theorem Call.obeys (down : List Method) (records : Records) (call : Call) :
    Obeys (call.Fault down (contentsOf records)) (contentsOf records)
      (call.Effect (contentsOf records)) (call.run down records) := by
  by_cases failing : call.method ∈ down
  · rw [run_down failing]
    exact Obeys.failed (Fault.down failing) rfl
  · rw [run_up failing]
    exact obeys_perform failing

end Call

/-! ### A save -/

namespace Store

section Save

variable {down : List Method} {records : Records} {clock : Clock} {name title : String}
  {graph : Graph}

theorem run_save_blank (blank : Text.isBlankText name = true) :
    (save clock name title graph).run down records =
      (.error (.nameRequired "save"), records) := by
  unfold save
  rw [if_pos blank]
  rfl

theorem run_save_has_down (shown : Text.isBlankText name = false) (failing : .has ∈ down) :
    (save clock name title graph).run down records =
      (.error (.unavailable Method.has.label), records) := by
  have asked : (Call.has name).run down records =
      (.error (.unavailable Method.has.label), records) :=
    Call.run_down failing
  unfold save
  rw [if_neg (by simp [shown])]
  simp only [Script.run, asked]

/-- A save under a new name creates its record. -/
theorem run_save_absent (shown : Text.isBlankText name = false) (working : .has ∉ down)
    (absent : contentsOf records name = none) :
    (save clock name title graph).run down records =
      (Call.create (firstSave clock name title graph)).run down records := by
  have answer : records.contains name = false := by
    rw [Bool.eq_false_iff, ne_eq, contains_iff, not_not]
    exact absent
  have asked : (Call.has name).run down records = (.ok false, records) := by
    rw [Call.run_up working, ← answer]
    rfl
  unfold save
  rw [if_neg (by simp [shown])]
  simp only [Script.run, asked]
  rfl

/-- A save over a record reads it first and then replaces it. -/
theorem run_save_present (shown : Text.isBlankText name = false) (working : .has ∉ down)
    {old : SavedGraph} (present : contentsOf records name = some old) :
    (save clock name title graph).run down records =
      if .find ∈ down then (.error (.unavailable Method.find.label), records)
      else (Call.update { firstSave clock name title graph with
        createTime := old.createTime, updateTime := clock.replace }).run down records := by
  have answer : records.contains name = true := contains_iff.mpr (by simp [present])
  have asked : (Call.has name).run down records = (.ok true, records) := by
    rw [Call.run_up working, ← answer]
    rfl
  unfold save
  rw [if_neg (by simp [shown])]
  simp only [Script.run, asked]
  by_cases failing : Method.find ∈ down
  · have found : (Call.find name).run down records = _ := Call.run_down failing
    simp only [found, if_pos failing]
    rfl
  · have found : (Call.find name).run down records = _ := Call.run_up failing
    rw [perform_find_present present] at found
    simp only [found, if_neg failing]
    rfl

theorem savedOver_none :
    SavedOver clock name title graph none (firstSave clock name title graph) where
  name := rfl
  title := rfl
  record := rfl
  first := fun _ => ⟨rfl, rfl⟩
  again := by
    intro before same
    cases same

theorem savedOver_some (old : SavedGraph) :
    SavedOver clock name title graph (some old) { firstSave clock name title graph with
      createTime := old.createTime, updateTime := clock.replace } where
  name := rfl
  title := rfl
  record := rfl
  first := by
    intro same
    cases same
  again := by
    intro before same
    cases same
    exact ⟨rfl, rfl⟩

theorem has_mem_saveMethods (old : Option SavedGraph) : .has ∈ saveMethods old := by
  cases old <;> exact List.mem_cons_self

theorem not_saveFault {before : Contents} (shown : Text.isBlankText name = false)
    (working : ∀ method ∈ saveMethods (before name), method ∉ down) (error : Error) :
    ¬SaveFault down name before error := by
  intro fault
  cases fault with
  | blank blank =>
      rw [shown] at blank
      cases blank
  | down called failing => exact working _ called failing

theorem save_obeys_absent (shown : Text.isBlankText name = false) (working : .has ∉ down)
    (absent : contentsOf records name = none) :
    Obeys (SaveFault down name (contentsOf records)) (contentsOf records)
      (SaveEffect clock name title graph (contentsOf records))
      ((save clock name title graph).run down records) := by
  rw [run_save_absent shown working absent]
  by_cases failing : Method.create ∈ down
  · rw [Call.run_down failing]
    refine Obeys.failed (SaveFault.down ?_ failing) rfl
    simp [absent, saveMethods, Call.method]
  · rw [Call.run_up failing, perform_create_absent absent]
    refine Obeys.served (not_saveFault shown ?_) ⟨rfl, _, absent ▸ savedOver_none, ?_⟩
    · simp [absent, saveMethods, working, failing]
    · exact contentsOf_insert records name _

theorem save_obeys_present (shown : Text.isBlankText name = false) (working : .has ∉ down)
    {old : SavedGraph} (present : contentsOf records name = some old) :
    Obeys (SaveFault down name (contentsOf records)) (contentsOf records)
      (SaveEffect clock name title graph (contentsOf records))
      ((save clock name title graph).run down records) := by
  rw [run_save_present shown working present]
  by_cases findDown : Method.find ∈ down
  · rw [if_pos findDown]
    refine Obeys.failed (SaveFault.down ?_ findDown) rfl
    simp [present, saveMethods]
  · rw [if_neg findDown]
    by_cases updateDown : Method.update ∈ down
    · rw [Call.run_down updateDown]
      refine Obeys.failed (SaveFault.down ?_ updateDown) rfl
      simp [present, saveMethods, Call.method]
    · have there : contentsOf records name ≠ none := by simp [present]
      rw [Call.run_up updateDown, perform_update_present there]
      refine Obeys.served (not_saveFault shown ?_) ⟨rfl, _, present ▸ savedOver_some old, ?_⟩
      · simp [present, saveMethods, working, findDown, updateDown]
      · exact contentsOf_insert records name _

theorem save_obeys (down : List Method) (records : Records) (clock : Clock) (name title : String)
    (graph : Graph) :
    Obeys (SaveFault down name (contentsOf records)) (contentsOf records)
      (SaveEffect clock name title graph (contentsOf records))
      ((save clock name title graph).run down records) := by
  cases shown : Text.isBlankText name with
  | true =>
      rw [run_save_blank shown]
      exact Obeys.failed (SaveFault.blank shown) rfl
  | false =>
      by_cases failing : Method.has ∈ down
      · rw [run_save_has_down shown failing]
        exact Obeys.failed (SaveFault.down (has_mem_saveMethods _) failing) rfl
      · cases found : contentsOf records name with
        | none => exact save_obeys_absent shown failing found
        | some old => exact save_obeys_present shown failing found

/-- After a save the name has a record of the graph. -/
theorem find_of_run_save {after : Records}
    (saved : (save clock name title graph).run down records = (.ok true, after)) :
    ∃ written, after[name]? = some written ∧ written.record = GraphRecord.ofGraph graph := by
  have obeys := save_obeys down records clock name title graph
  rw [saved] at obeys
  cases obeys with
  | served _ effect =>
      obtain ⟨_, written, shape, update⟩ := effect
      refine ⟨written, ?_, shape.record⟩
      change contentsOf after name = some written
      rw [update, Function.update_self]

end Save

theorem load_obeys (down : List Method) (records : Records) (name : String) :
    Obeys (LoadFault down name (contentsOf records)) (contentsOf records)
      (LoadEffect name (contentsOf records)) ((load name).run down records) := by
  have asked := Call.obeys down records (.find name)
  generalize outcome : (Call.find name).run down records = answered at asked
  unfold load
  simp only [Script.run, outcome]
  cases asked with
  | failed fault same => exact Obeys.failed (LoadFault.unfound fault) same
  | @served saved after works effect =>
      obtain ⟨present, same⟩ := effect
      simp only [Script.run]
      cases read : saved.record.toGraph with
      | error error => exact Obeys.failed (LoadFault.unread present read) same
      | ok graph =>
          refine Obeys.served ?_ ⟨⟨saved, present, rfl, read⟩, same⟩
          intro error fault
          cases fault with
          | unfound fault => exact works _ fault
          | unread other unread =>
              cases present.symm.trans other
              cases read.symm.trans unread

end Store

/-- Every request obeys its specification on every collection. -/
theorem Request.obeys (down : List Method) (records : Records) (request : Request) :
    Obeys (request.Fault down (contentsOf records)) (contentsOf records)
      (request.Effect (contentsOf records)) (request.script.run down records) := by
  cases request with
  | save clock name title graph => exact Store.save_obeys down records clock name title graph
  | load name => exact Store.load_obeys down records name
  | list => exact Call.obeys down records .list
  | delete name => exact Call.obeys down records (.delete name)
  | call step => exact Call.obeys down records step

end CrewCanvas
