/-
Saves and deletions at the same time.

Clients work on one collection, each on a job of its own: a save or a deletion.  A client
that takes its turn makes the next call of its job, and any other clients may take turns
between two of its calls.  A log holds the writes in the order in which they took effect.
Whatever the order of the turns, the answer of a job says what it has written, and every
name holds what the log says was written to it last.
-/

import CrewCanvas.Proofs.StoreJobs
import Mathlib.Data.List.Induction

namespace CrewCanvas

/-! ### Logs -/

/-- What stands under a name after writes: the content of the last write to it, or what
was there before all of them. -/
inductive Stands (start : Contents) (writes : List Write) (name : String) :
    Option SavedGraph → Prop
  | untouched : (∀ write ∈ writes, write.name ≠ name) → Stands start writes name (start name)
  | written {earlier later : List Write} {last : Write} :
      writes = earlier ++ last :: later → last.name = name →
        (∀ write ∈ later, write.name ≠ name) → Stands start writes name last.content

theorem Stands.later {start : Contents} {writes : List Write} {name : String}
    {content : Option SavedGraph} (stands : Stands start writes name content) {write : Write}
    (other : write.name ≠ name) : Stands start (writes ++ [write]) name content := by
  cases stands with
  | untouched none =>
      refine untouched ?_
      intro each member
      rcases List.mem_append.mp member with old | new
      · exact none each old
      · exact List.mem_singleton.mp new ▸ other
  | @written earlier later last split named none =>
      have longer : writes ++ [write] = earlier ++ last :: (later ++ [write]) := by
        rw [split, List.append_assoc, List.cons_append]
      refine written longer named ?_
      intro each member
      rcases List.mem_append.mp member with old | new
      · exact none each old
      · exact List.mem_singleton.mp new ▸ other

theorem stands_replay (start : Contents) (writes : List Write) (name : String) :
    Stands start writes name (replay start writes name) := by
  induction writes using List.reverseRecOn with
  | nil => exact Stands.untouched (by simp)
  | append_singleton earlier write ih =>
      unfold replay at ih ⊢
      rw [List.foldl_append, List.foldl_cons, List.foldl_nil]
      by_cases same : write.name = name
      · subst same
        rw [Function.update_self]
        exact Stands.written rfl rfl (by simp)
      · rw [Function.update_of_ne (Ne.symm same)]
        exact ih.later same

theorem replay_of_ne {start : Contents} {writes : List Write} {name : String}
    (others : ∀ write ∈ writes, write.name ≠ name) : replay start writes name = start name := by
  have stands := stands_replay start writes name
  generalize replay start writes name = content at stands ⊢
  cases stands with
  | untouched _ => rfl
  | @written earlier later last split named _ =>
      subst split
      exact absurd named (others last (by simp))

/-! ### Turns -/

structure Turn (ι : Type) where
  client : ι
  down : List Method

/-- Clients at work: the collection, what is left of each job, and the writes so far, each
with the client that made it. -/
structure Traffic (ι : Type) where
  records : Records
  left : ι → Script (Except Error Bool)
  log : List (ι × Write)

namespace Traffic

variable {ι : Type} [DecidableEq ι]

def start (jobs : ι → Job) (records : Records) : Traffic ι :=
  { records, left := fun client => (jobs client).script, log := [] }

/-- A client makes its next call.  A client that is done lets its turn pass. -/
def take (traffic : Traffic ι) (turn : Turn ι) : Traffic ι :=
  match traffic.left turn.client with
  | .done _ => traffic
  | .call step next =>
      let writes := step.writes turn.down (contentsOf traffic.records)
      { records := (step.run turn.down traffic.records).2
        left := Function.update traffic.left turn.client
          (next (step.run turn.down traffic.records).1)
        log := traffic.log ++ writes.map (fun write => (turn.client, write)) }

def run (traffic : Traffic ι) (turns : List (Turn ι)) : Traffic ι := turns.foldl take traffic

def answer? (traffic : Traffic ι) (client : ι) : Option (Except Error Bool) :=
  match traffic.left client with
  | .done answer => some answer
  | .call _ _ => none

def writesOf (traffic : Traffic ι) (client : ι) : List Write :=
  (traffic.log.filter (fun entry => entry.1 = client)).map Prod.snd

variable {jobs : ι → Job} {contents : Contents} {traffic : Traffic ι} {turn : Turn ι}

omit [DecidableEq ι] in
theorem answer?_eq_some_iff {client : ι} {answer : Except Error Bool} :
    traffic.answer? client = some answer ↔ traffic.left client = .done answer := by
  unfold answer?
  cases traffic.left client <;> simp

theorem take_done {answer : Except Error Bool} (done : traffic.left turn.client = .done answer) :
    traffic.take turn = traffic := by
  unfold take
  rw [done]

section Call

variable {step : Call} {next : Except Error step.Answer → Script (Except Error Bool)}

theorem left_take_own (rest : traffic.left turn.client = .call step next) :
    (traffic.take turn).left turn.client = next (step.run turn.down traffic.records).1 := by
  unfold take
  rw [rest]
  exact Function.update_self _ _ _

theorem log_take (rest : traffic.left turn.client = .call step next) :
    (traffic.take turn).log =
      traffic.log ++ (step.writes turn.down (contentsOf traffic.records)).map
        (fun write => (turn.client, write)) := by
  unfold take
  rw [rest]

theorem writesOf_take_own (rest : traffic.left turn.client = .call step next) :
    (traffic.take turn).writesOf turn.client =
      traffic.writesOf turn.client ++ step.writes turn.down (contentsOf traffic.records) := by
  unfold writesOf
  rw [log_take rest, List.filter_append, List.map_append, List.filter_map, List.map_map]
  simp [Function.comp_def]

theorem contents_take (rest : traffic.left turn.client = .call step next) :
    contentsOf (traffic.take turn).records =
      replay (contentsOf traffic.records)
        (step.writes turn.down (contentsOf traffic.records)) := by
  unfold take
  rw [rest]
  exact Call.contents_run turn.down traffic.records step

end Call

/-- A turn changes nothing for the other clients. -/
theorem left_take_other {client : ι} (other : client ≠ turn.client) :
    (traffic.take turn).left client = traffic.left client := by
  cases rest : traffic.left turn.client with
  | done answer => rw [take_done rest]
  | call step next =>
      unfold take
      rw [rest]
      exact Function.update_of_ne other _ _

theorem writesOf_take_other {client : ι} (other : client ≠ turn.client) :
    (traffic.take turn).writesOf client = traffic.writesOf client := by
  cases rest : traffic.left turn.client with
  | done answer => rw [take_done rest]
  | call step next =>
      unfold writesOf
      rw [log_take rest, List.filter_append, List.filter_map]
      simp [Function.comp_def, Ne.symm other]

/-! ### Books -/

/-- What each job has left accounts for its writes, and all writes together have made the
collection what it is. -/
structure Balanced (jobs : ι → Job) (contents : Contents) (traffic : Traffic ι) : Prop where
  accounts : ∀ client, (jobs client).Accounts (traffic.writesOf client) (traffic.left client)
  replays : contentsOf traffic.records = replay contents (traffic.log.map Prod.snd)

theorem balanced_start (jobs : ι → Job) (records : Records) :
    Balanced jobs (contentsOf records) (start jobs records) where
  accounts := by
    intro client
    exact (jobs client).accounts_script
  replays := rfl

theorem Balanced.take (balanced : Balanced jobs contents traffic) (turn : Turn ι) :
    Balanced jobs contents (traffic.take turn) := by
  cases rest : traffic.left turn.client with
  | done answer =>
      rw [take_done rest]
      exact balanced
  | call step next =>
      constructor
      · intro client
        by_cases own : client = turn.client
        · subst own
          -- A call was left, so nothing was written before it, whatever others did meanwhile.
          have accounts := balanced.accounts turn.client
          rw [rest] at accounts
          obtain ⟨none, whatever⟩ := accounts
          rw [writesOf_take_own rest, left_take_own rest, none]
          exact whatever turn.down traffic.records
        · rw [writesOf_take_other own, left_take_other own]
          exact balanced.accounts client
      · rw [contents_take rest, log_take rest, balanced.replays]
        unfold replay
        rw [List.map_append, List.foldl_append, List.map_map]
        simp [Function.comp_def]

theorem Balanced.run (balanced : Balanced jobs contents traffic) (turns : List (Turn ι)) :
    Balanced jobs contents (traffic.run turns) := by
  induction turns generalizing traffic with
  | nil => exact balanced
  | cons turn later ih => exact ih (balanced.take turn)

theorem Balanced.settled (balanced : Balanced jobs contents traffic) {client : ι}
    {answer : Except Error Bool} (done : traffic.answer? client = some answer) :
    (jobs client).Settled answer (traffic.writesOf client) := by
  have accounts := balanced.accounts client
  rw [answer?_eq_some_iff.mp done] at accounts
  exact accounts

theorem Balanced.pending (balanced : Balanced jobs contents traffic) {client : ι}
    (pending : traffic.answer? client = none) : traffic.writesOf client = [] := by
  have accounts := balanced.accounts client
  unfold answer? at pending
  cases rest : traffic.left client with
  | done answer => simp [rest] at pending
  | call step next =>
      rw [rest] at accounts
      exact accounts.1

/-! ### How long a job lasts -/

theorem endsWithin_take {client : ι} {calls : Nat}
    (ends : (traffic.left client).EndsWithin
      (calls + if turn.client = client then 1 else 0)) :
    ((traffic.take turn).left client).EndsWithin calls := by
  by_cases own : turn.client = client
  · subst own
    rw [if_pos rfl] at ends
    cases rest : traffic.left turn.client with
    | done answer =>
        rw [take_done rest, rest]
        cases calls <;> trivial
    | call step next =>
        rw [rest] at ends
        rw [left_take_own rest]
        exact ends _
  · rw [if_neg own] at ends
    rw [left_take_other (Ne.symm own)]
    exact ends

theorem endsWithin_run {client : ι} (turns : List (Turn ι)) {calls : Nat}
    (ends : (traffic.left client).EndsWithin (calls + (turns.map Turn.client).count client)) :
    ((traffic.run turns).left client).EndsWithin calls := by
  induction turns generalizing traffic with
  | nil => exact ends
  | cons turn later ih =>
      apply ih
      apply endsWithin_take
      rw [List.map_cons, List.count_cons] at ends
      simpa [Nat.add_assoc, beq_iff_eq] using ends

theorem answer?_run (jobs : ι → Job) (records : Records) {turns : List (Turn ι)} {client : ι}
    (often : 3 ≤ (turns.map Turn.client).count client) :
    ∃ answer, ((start jobs records).run turns).answer? client = some answer := by
  have ends : (((start jobs records).run turns).left client).EndsWithin 0 := by
    apply endsWithin_run turns
    exact Script.endsWithin_of_le (by omega) (jobs client).endsWithin_script
  cases rest : ((start jobs records).run turns).left client with
  | done answer => exact ⟨answer, answer?_eq_some_iff.mpr rest⟩
  | call step next =>
      rw [rest] at ends
      cases ends

/-! ### Answers and writes -/

theorem Balanced.name_of_writes (balanced : Balanced jobs contents traffic) {client : ι}
    {write : Write} (member : write ∈ traffic.writesOf client) :
    write.name = (jobs client).name := by
  cases answered : traffic.answer? client with
  | none => simp [balanced.pending answered] at member
  | some answer => exact (balanced.settled answered).name_of_mem member

theorem mem_writesOf {entry : ι × Write} (member : entry ∈ traffic.log) :
    entry.2 ∈ traffic.writesOf entry.1 :=
  List.mem_map_of_mem (List.mem_filter.mpr ⟨member, decide_eq_true rfl⟩)

theorem Balanced.untouched (balanced : Balanced jobs contents traffic) {name : String}
    (foreign : ∀ client, (jobs client).name ≠ name) :
    contentsOf traffic.records name = contents name := by
  rw [balanced.replays]
  apply replay_of_ne
  intro write member
  obtain ⟨entry, logged, rfl⟩ := List.mem_map.mp member
  rw [balanced.name_of_writes (mem_writesOf logged)]
  exact foreign entry.1

structure Accounted (jobs : ι → Job) (before : Contents) (turns : List (Turn ι))
    (traffic : Traffic ι) : Prop where
  saves : ∀ client clock name title graph, jobs client = .save clock name title graph →
    ∀ answer, traffic.answer? client = some answer →
      (answer = .ok true ↔
        ∃ saved, Store.SavedAs name title graph saved ∧
          traffic.writesOf client = [.put saved]) ∧
      (answer ≠ .ok true → traffic.writesOf client = [])
  deletions : ∀ client name, jobs client = .delete name →
    ∀ answer, traffic.answer? client = some answer →
      traffic.writesOf client = if answer.isOk then [.erase name] else []
  unanswered : ∀ client, traffic.answer? client = none → traffic.writesOf client = []
  answers : ∀ client, 3 ≤ (turns.map Turn.client).count client →
    ∃ answer, traffic.answer? client = some answer
  stands : ∀ name,
    Stands before (traffic.log.map Prod.snd) name (contentsOf traffic.records name)
  untouched : ∀ name, (∀ client, (jobs client).name ≠ name) →
    contentsOf traffic.records name = before name

/-- Whoever takes turns and in whatever order, whichever methods are down at each of them:
a save that answers that it has saved has written its own graph once, a save with any other
answer has written nothing, and each name holds what was written to it last. -/
theorem accounted_of_turns (jobs : ι → Job) (records : Records) (turns : List (Turn ι)) :
    Accounted jobs (contentsOf records) turns ((start jobs records).run turns) := by
  have balanced := (balanced_start jobs records).run turns
  refine
    { saves := ?saves
      deletions := ?deletions
      unanswered := fun client => balanced.pending
      answers := fun client => answer?_run jobs records
      stands := ?stands
      untouched := fun name => balanced.untouched }
  case saves =>
    intro client clock name title graph job answer answered
    have settled := balanced.settled answered
    rw [job] at settled
    exact settled.save_iff
  case deletions =>
    intro client name job answer answered
    have settled := balanced.settled answered
    rw [job] at settled
    exact settled.delete_eq
  case stands =>
    intro name
    rw [balanced.replays]
    exact stands_replay (contentsOf records) _ name

/-- Of two first saves under one name, both asked before either writes, the later one is
told that it has lost. -/
example :
    let jobs : Bool → Job := fun late =>
      .save ⟨0, 0⟩ "blog" (if late then "late" else "early") Graph.empty
    let traffic := (start jobs ∅).run [⟨false, []⟩, ⟨true, []⟩, ⟨false, []⟩, ⟨true, []⟩]
    traffic.answer? false = some (.ok true) ∧ traffic.answer? true = some (.ok false) ∧
      (traffic.records["blog"]?).map SavedGraph.title = some "early" := by
  exact ⟨rfl, rfl, rfl⟩

end Traffic

end CrewCanvas
