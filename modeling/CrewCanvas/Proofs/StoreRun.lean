/-
Scripts of the store, run alone.

A load reads one record and writes none.  A save with all methods up succeeds and puts
one record under its name, whatever was there.
-/

import CrewCanvas.Editor

namespace CrewCanvas

theorem Script.run_map {α β : Type} (f : α → β) (down : List Method) (records : Records)
    (script : Script α) :
    (script.map f).run down records =
      (f (script.run down records).1, (script.run down records).2) := by
  induction script generalizing records with
  | done result => rfl
  | call step next ih => exact ih (step.run down records).1 (step.run down records).2

namespace Store

def loaded (down : List Method) (records : Records) (name : String) :
    Except Error (String × Graph) :=
  if Method.find ∈ down then .error (.unavailable Method.find.label)
  else
    match records[name]? with
    | none => .error (.savedMissing name)
    | some saved => saved.record.toGraph.map (fun graph => (saved.title, graph))

theorem run_load (down : List Method) (records : Records) (name : String) :
    (load name).run down records = (loaded down records name, records) := by
  unfold load loaded
  by_cases failing : Method.find ∈ down
  · simp only [Script.run, Call.run, Call.method, failing, if_true]
  · cases found : records[name]? with
    | none => simp only [Script.run, Call.run, Call.perform, Call.method, failing, if_false, found]
    | some saved =>
        simp only [Script.run, Call.run, Call.perform, Call.method, failing, if_false, found]

theorem loaded_eq_ok_iff {down : List Method} {records : Records} {name title : String}
    {graph : Graph} :
    loaded down records name = .ok (title, graph) ↔
      Method.find ∉ down ∧ ∃ saved, records[name]? = some saved ∧ saved.title = title ∧
        saved.record.toGraph = .ok graph := by
  unfold loaded
  by_cases failing : Method.find ∈ down
  · simp [failing]
  · cases records[name]? with
    | none => simp [failing]
    | some saved => cases read : saved.record.toGraph <;> simp [failing, read, Except.map]

/-- A save under a name that is not blank, with every method up. -/
theorem run_save {name : String} (shown : Text.isBlankText name = false) (clock : Clock)
    (title : String) (graph : Graph) (records : Records) :
    ∃ saved : SavedGraph, saved.title = title ∧ saved.record = GraphRecord.ofGraph graph ∧
      (save clock name title graph).run [] records =
        (.ok true, records.insert name saved) := by
  unfold save
  rw [if_neg (by simp [shown])]
  have present : records.contains name = records[name]?.isSome :=
    Std.ExtTreeMap.contains_eq_isSome_getElem?
  cases found : records[name]? with
  | none =>
      rw [found] at present
      refine ⟨firstSave clock name title graph, rfl, rfl, ?_⟩
      simp [Script.run, Script.ofCall, Call.run, Call.perform, present, firstSave]
      rfl
  | some old =>
      rw [found] at present
      refine ⟨{ firstSave clock name title graph with
        createTime := old.createTime, updateTime := clock.replace }, rfl, rfl, ?_⟩
      simp [Script.run, Script.ofCall, Call.run, Call.perform, present, found, firstSave]
      rfl

end Store

namespace Editor

theorem run_load (editor : Editor) {name : String} (shown : Text.isBlankText name = false)
    (down : List Method) (records : Records) :
    (editor.load name).run down records =
      (match Store.loaded down records name with
        | .error error => (.error error, editor)
        | .ok (title, graph) => (.ok title, editor.withGraph graph), records) := by
  have read := Store.run_load down records name
  unfold load
  rw [if_neg (by simp [shown]), Script.run_map]
  -- Both sides match on what the store has answered.
  generalize (Store.load name).run down records = outcome at read ⊢
  subst read
  rfl

theorem run_load_blank (editor : Editor) {name : String} (blank : Text.isBlankText name = true)
    (down : List Method) (records : Records) :
    (editor.load name).run down records =
      ((.error (.nameRequired "load"), editor), records) := by
  unfold load
  rw [if_pos blank]
  rfl

end Editor

end CrewCanvas
