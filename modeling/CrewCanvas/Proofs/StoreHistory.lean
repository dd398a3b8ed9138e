/-
Histories of a store.

A history starts from the empty collection and serves one request after the other, each
with any methods of the collection down.  All along it every record stands under its own
name, and the time of its first save stays until it is deleted or overwritten past the
store.
-/

import CrewCanvas.Proofs.StoreRequests
import Mathlib.Data.List.Induction

namespace CrewCanvas

variable {before after : Contents}

/-! ### Requests that do nothing -/

/-- The answer `false`: the request was served and did nothing. -/
def Call.Negative : (call : Call) → call.Answer → Prop
  | .has _, (present : Bool) => present = false
  | .find _, _ => False
  | .list, _ => False
  | .create _, (created : Bool) => created = false
  | .update _, (updated : Bool) => updated = false
  | .delete _, (deleted : Bool) => deleted = false

def Request.Negative : (request : Request) → request.Answer → Prop
  | .save _ _ _ _, (done : Bool) => done = false
  | .load _, _ => False
  | .list, _ => False
  | .delete name, answer => Call.Negative (.delete name) answer
  | .call step, answer => step.Negative answer

theorem Call.Effect.unchanged {call : Call} {answer : call.Answer}
    (effect : call.Effect before after answer) (negative : call.Negative answer) :
    after = before := by
  cases call with
  | has name => exact effect.2
  | find name => exact effect.2
  | list => exact effect.2
  | create saved =>
      cases negative
      exact effect.2
  | update saved =>
      cases negative
      exact effect.2
  | delete name =>
      cases negative
      have absent : before name = none := by simpa using effect.1
      rw [effect.2, ← absent]
      exact Function.update_eq_self name before

theorem Request.Effect.unchanged {request : Request} {answer : request.Answer}
    (effect : request.Effect before after answer) (negative : request.Negative answer) :
    after = before := by
  cases request with
  | save clock name title graph =>
      cases negative
      cases effect.1
  | load name => exact effect.2
  | list => exact effect.2
  | delete name =>
      have deleted : Call.Effect before after (.delete name) answer := effect
      exact deleted.unchanged negative
  | call step =>
      have served : step.Effect before after answer := effect
      exact served.unchanged negative

/-! ### What a request writes -/

/-- The store keeps the time of a first save; these requests go past it or delete the
record. -/
def Request.Overwrites (name : String) : Request → Prop
  | .delete other => other = name
  | .call (.delete other) => other = name
  | .call (.update saved) => saved.name = name
  | _ => False

def EachNamed (contents : Contents) : Prop :=
  ∀ name saved, contents name = some saved → saved.name = name

theorem EachNamed.update (named : EachNamed before) {name : String} {new : Option SavedGraph}
    (same : ∀ saved ∈ new, saved.name = name) : EachNamed (Function.update before name new) := by
  intro other found present
  by_cases here : other = name
  · subst here
    rw [Function.update_self] at present
    exact same found present
  · rw [Function.update_of_ne here] at present
    exact named other found present

inductive Request.Writes (request : Request) (before : Contents) : Contents → Prop
  | nothing : Writes request before before
  | first {saved : SavedGraph} : before saved.name = none →
      Writes request before (Function.update before saved.name (some saved))
  | again {old saved : SavedGraph} :
      before saved.name = some old → saved.createTime = old.createTime →
        Writes request before (Function.update before saved.name (some saved))
  | overwritten {saved : SavedGraph} : request.Overwrites saved.name →
      Writes request before (Function.update before saved.name (some saved))
  | erased {name : String} : request.Overwrites name →
      Writes request before (Function.update before name none)

namespace Request

theorem Effect.writes {request : Request} {answer : request.Answer}
    (effect : request.Effect before after answer) : request.Writes before after := by
  cases request with
  | save clock name title graph =>
      obtain ⟨_, saved, savedOver, same⟩ := effect
      cases savedOver.name
      rw [same]
      cases found : before saved.name with
      | none => exact Writes.first found
      | some old => exact Writes.again found (savedOver.again old found).1
  | load name => exact effect.2 ▸ Writes.nothing
  | list => exact effect.2 ▸ Writes.nothing
  | delete name => exact effect.2 ▸ Writes.erased rfl
  | call step =>
      cases step with
      | has name => exact effect.2 ▸ Writes.nothing
      | find name => exact effect.2 ▸ Writes.nothing
      | list => exact effect.2 ▸ Writes.nothing
      | create saved =>
          obtain ⟨created, same⟩ := effect
          cases answer with
          | false => exact same ▸ Writes.nothing
          | true => exact same ▸ Writes.first (created.mp rfl)
      | update saved =>
          obtain ⟨_, same⟩ := effect
          cases answer with
          | false => exact same ▸ Writes.nothing
          | true => exact same ▸ Writes.overwritten rfl
      | delete name => exact effect.2 ▸ Writes.erased rfl

theorem writes (down : List Method) (records : Records) (request : Request) :
    request.Writes (contentsOf records) (contentsOf (request.script.run down records).2) := by
  have obeys := request.obeys down records
  generalize request.script.run down records = outcome at obeys ⊢
  cases obeys with
  | failed _ same => exact same ▸ Writes.nothing
  | served _ effect => exact effect.writes

variable {request : Request}

theorem Writes.eachNamed (writes : request.Writes before after) (named : EachNamed before) :
    EachNamed after := by
  cases writes with
  | nothing => exact named
  | first _ => exact named.update (by simp)
  | again _ _ => exact named.update (by simp)
  | overwritten _ => exact named.update (by simp)
  | erased _ => exact named.update (by simp)

/-- A record that is not overwritten keeps its place and the time of its first save. -/
theorem Writes.kept (writes : request.Writes before after) {name : String} {saved : SavedGraph}
    (stays : ¬request.Overwrites name) (present : before name = some saved) :
    ∃ later, after name = some later ∧ later.createTime = saved.createTime := by
  have elsewhere {other : String} (different : name ≠ other) (new : Option SavedGraph) :
      ∃ later, Function.update before other new name = some later ∧
        later.createTime = saved.createTime :=
    ⟨saved, (Function.update_of_ne different new before).trans present, rfl⟩
  cases writes with
  | nothing => exact ⟨saved, present, rfl⟩
  | @first given absent =>
      refine elsewhere ?_ (some given)
      intro same
      rw [same, absent] at present
      cases present
  | @again old given found time =>
      by_cases same : name = given.name
      · cases same
        cases found.symm.trans present
        exact ⟨given, Function.update_self _ _ _, time⟩
      · exact elsewhere same (some given)
  | @overwritten given overwrites =>
      refine elsewhere ?_ (some given)
      intro same
      exact stays (same ▸ overwrites)
  | @erased other overwrites =>
      refine elsewhere ?_ none
      intro same
      exact stays (same ▸ overwrites)

end Request

/-! ### Histories -/

structure Attempt where
  request : Request
  down : List Method

namespace Attempt

variable (attempt : Attempt) (records : Records)

def run : Except Error attempt.request.Answer × Records :=
  attempt.request.script.run attempt.down records

def Refused : Prop :=
  match (attempt.run records).1 with
  | .error _ => True
  | .ok answer => attempt.request.Negative answer

end Attempt

def recordsAfter (history : List Attempt) : Records :=
  history.foldl (fun records attempt => (attempt.run records).2) ∅

theorem recordsAfter_concat (history : List Attempt) (attempt : Attempt) :
    recordsAfter (history ++ [attempt]) = (attempt.run (recordsAfter history)).2 := by
  unfold recordsAfter
  rw [List.foldl_append, List.foldl_cons, List.foldl_nil]

def contentsAfter (history : List Attempt) : Contents := contentsOf (recordsAfter history)

theorem contentsAfter_nil : contentsAfter [] = fun _ => none := by
  funext name
  exact Std.ExtTreeMap.getElem?_empty

theorem Attempt.writes (history : List Attempt) (attempt : Attempt) :
    attempt.request.Writes (contentsAfter history) (contentsAfter (history ++ [attempt])) := by
  unfold contentsAfter
  rw [recordsAfter_concat]
  exact attempt.request.writes attempt.down (recordsAfter history)

theorem Attempt.unchanged {history : List Attempt} {attempt : Attempt}
    (refused : attempt.Refused (recordsAfter history)) :
    contentsAfter (history ++ [attempt]) = contentsAfter history := by
  have obeys := attempt.request.obeys attempt.down (recordsAfter history)
  unfold contentsAfter
  rw [recordsAfter_concat]
  unfold Refused run at refused
  unfold run
  generalize attempt.request.script.run attempt.down (recordsAfter history) = outcome
    at obeys refused ⊢
  cases obeys with
  | failed _ same => exact same
  | served _ effect => exact effect.unchanged refused

theorem eachNamed_after (history : List Attempt) : EachNamed (contentsAfter history) := by
  induction history using List.reverseRecOn with
  | nil =>
      intro name saved present
      rw [contentsAfter_nil] at present
      cases present
  | append_singleton earlier attempt ih => exact (attempt.writes earlier).eachNamed ih

theorem kept_after {history : List Attempt} {name : String} {saved : SavedGraph}
    (present : contentsAfter history name = some saved) (later : List Attempt)
    (stays : ∀ attempt ∈ later, ¬attempt.request.Overwrites name) :
    ∃ last, contentsAfter (history ++ later) name = some last ∧
      last.createTime = saved.createTime := by
  -- The last request may replace the record, so the times are compared step by step.
  induction later using List.reverseRecOn with
  | nil => exact ⟨saved, (List.append_nil history).symm ▸ present, rfl⟩
  | append_singleton earlier attempt ih =>
      obtain ⟨middle, found, time⟩ :=
        ih (fun other member => stays other (List.mem_append_left _ member))
      have untouched := stays attempt (List.mem_append_right _ List.mem_cons_self)
      rw [← List.append_assoc]
      obtain ⟨last, foundLast, timeLast⟩ :=
        (attempt.writes (history ++ earlier)).kept untouched found
      exact ⟨last, foundLast, timeLast.trans time⟩

structure BehavesAsMap (history : List Attempt) : Prop where
  eachNamed : EachNamed (contentsAfter history)
  obeys : ∀ attempt : Attempt,
    Obeys (attempt.request.Fault attempt.down (contentsAfter history)) (contentsAfter history)
      (attempt.request.Effect (contentsAfter history)) (attempt.run (recordsAfter history))
  unchanged : ∀ attempt : Attempt, attempt.Refused (recordsAfter history) →
    contentsAfter (history ++ [attempt]) = contentsAfter history
  createTime : ∀ name saved, contentsAfter history name = some saved → ∀ later : List Attempt,
    (∀ attempt ∈ later, ¬attempt.request.Overwrites name) →
      ∃ last, contentsAfter (history ++ later) name = some last ∧
        last.createTime = saved.createTime

/-- After every history the store behaves as a map. -/
theorem behavesAsMap_after (history : List Attempt) : BehavesAsMap history where
  eachNamed := eachNamed_after history
  obeys := by
    intro attempt
    exact attempt.request.obeys attempt.down (recordsAfter history)
  unchanged := by
    intro attempt refused
    exact Attempt.unchanged refused
  createTime := by
    intro name saved present later stays
    exact kept_after present later stays

def firstSaved : List Attempt := [⟨.save ⟨10, 11⟩ "blog" "v1" Graph.empty, []⟩]

def savedAgain : List Attempt :=
  [⟨.save ⟨20, 21⟩ "blog" "v2" Graph.empty, [.update]⟩,
    ⟨.save ⟨30, 31⟩ "blog" "v2" Graph.empty, []⟩, ⟨.call (.create { name := "blog" }), []⟩]

theorem firstSaved_behavesAsMap :
    contentsAfter firstSaved "blog" =
        some (Store.firstSave ⟨10, 11⟩ "blog" "v1" Graph.empty) ∧
      (∃ last, contentsAfter (firstSaved ++ savedAgain) "blog" = some last ∧
        last.createTime = 10) ∧
      contentsAfter (firstSaved ++ [⟨.save ⟨20, 21⟩ "blog" "v2" Graph.empty, [.update]⟩]) =
        contentsAfter firstSaved := by
  have map := behavesAsMap_after firstSaved
  refine ⟨rfl, map.createTime "blog" _ rfl savedAgain ?_, map.unchanged _ trivial⟩
  intro attempt member
  simp only [savedAgain, List.mem_cons, List.not_mem_nil, or_false] at member
  rcases member with same | same | same <;> simp [same, Request.Overwrites]

end CrewCanvas
