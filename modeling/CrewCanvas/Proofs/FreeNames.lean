/-
Identifiers in the order of the nodes.

Each agent and each task gets its base, unless the base is reserved or was given before.  Then
it gets the base with the least suffix that makes it free.  The search for it ends within as
many failed tries as there are reserved names and earlier agents and tasks.
-/

import CrewCanvas.Proofs.Naming
import Mathlib.Order.Bounds.Basic

namespace CrewCanvas

namespace Identifiers

/-! ### The first free name -/

/-- A name is the first free one of the base, `base_2`, `base_3`, ..., after a number of failed
tries. -/
inductive FirstFree (taken : List String) (base : String) : Nat → String → Prop
  | own : base ∉ taken → FirstFree taken base 0 base
  | suffix {failed : Nat} : base ∈ taken →
      IsLeast {count | 2 ≤ count ∧ suffixed base count ∉ taken} (failed + 1) →
        FirstFree taken base failed (suffixed base (failed + 1))

theorem FirstFree.congr {taken other : List String} {base name : String} {failed : Nat}
    (same : ∀ name, name ∈ taken ↔ name ∈ other) (first : FirstFree taken base failed name) :
    FirstFree other base failed name := by
  cases first with
  | own free => exact FirstFree.own (fun known => free ((same base).mpr known))
  | suffix isTaken least =>
      simp only [same] at least
      exact FirstFree.suffix ((same base).mp isTaken) least

/-- As many tries can fail as there are names that are taken. -/
theorem firstFree_isFirst (taken : List String) (base : String) :
    ∃ failed ≤ taken.length, FirstFree taken base failed (firstFree taken base) := by
  rcases firstFree_cases taken base with ⟨free, same⟩ | ⟨isTaken, found⟩
  · rw [same]
    exact ⟨0, Nat.zero_le _, FirstFree.own free⟩
  · unfold candidates at found
    rw [List.find?_map, Option.map_eq_some_iff] at found
    obtain ⟨step, isFirst, same⟩ := found
    obtain ⟨free, inRange, earlier⟩ := List.find?_range_eq_some.mp isFirst
    rw [← same]
    refine ⟨step + 1, List.mem_range.mp inRange, FirstFree.suffix isTaken ⟨?_, ?_⟩⟩
    · exact ⟨by omega, by simpa using free⟩
    · rintro count ⟨atLeast, isFree⟩
      by_contra less
      have tried := earlier (count - 2) (by omega)
      have shifted : count - 2 + 2 = count := by omega
      rw [Function.comp_apply, shifted] at tried
      simp [isFree] at tried

/-! ### One node after the other -/

theorem assign_append (taken : List String) (before after : List Node) :
    assign taken (before ++ after) =
      assign taken before ++
        assign (((assign taken before).map Prod.snd).reverse ++ taken) after := by
  induction before generalizing taken with
  | nil => rfl
  | cons node rest ih =>
      rw [List.cons_append, assign, assign]
      cases node.name? with
      | none => exact ih taken
      | some name => simp [ih]

theorem mem_of_get? {identifiers : Identifiers} {id : NodeId} {name : String}
    (found : identifiers.get? id = some name) : (id, name) ∈ identifiers.entries := by
  obtain ⟨entry, isFirst, same⟩ := Option.map_eq_some_iff.mp found
  have own : entry.1 = id := by simpa using List.find?_some isFirst
  rw [← own, ← same]
  exact List.mem_of_find?_eq_some isFirst

theorem get?_isSome_iff {identifiers : Identifiers} {id : NodeId} :
    (identifiers.get? id).isSome = true ↔ id ∈ identifiers.entries.map Prod.fst := by
  simp [get?]

theorem base_ne_empty (kind : NodeKind) (name : String) : base kind name ≠ "" := by
  unfold base
  simp only
  split
  · cases kind <;> decide
  · rename_i shown
    simpa using shown

theorem firstFree_ne_empty {taken : List String} {base : String} (shown : base ≠ "") :
    firstFree taken base ≠ "" := by
  obtain ⟨_, _, first⟩ := firstFree_isFirst taken base
  generalize firstFree taken base = name at first
  cases first with
  | own _ => exact shown
  | suffix _ _ => simp [suffixed]

/-- The names that are not free any more behind some nodes: the reserved ones and those that
were given to these nodes. -/
def takenBehind (identifiers : Identifiers) (before : List Node) : List String :=
  reserved ++ before.filterMap (fun node => identifiers.get? node.id)

structure GivenInOrder (identifiers : Identifiers) (nodes : List Node) : Prop where
  givenIff : ∀ id, (identifiers.get? id).isSome = true ↔
    ∃ node ∈ nodes, node.id = id ∧ (node.kind = .agent ∨ node.kind = .task)
  apart : ∀ id other name, identifiers.get? id = some name → identifiers.get? other = some name →
    id = other
  shaped : ∀ id name, identifiers.get? id = some name →
    name ≠ "" ∧ Unbroken name ∧ name ∉ reserved
  firstFree : ∀ before node after, nodes = before ++ node :: after →
    ∀ text, node.name? = some text →
      ∃ failed name, identifiers.get? node.id = some name ∧
        FirstFree (identifiers.takenBehind before) (base node.kind text) failed name ∧
        failed ≤ (before.filter (fun node => node.kind = .agent ∨ node.kind = .task)).length + 7

end Identifiers

namespace Graph

open Identifiers (resolve reserved assign firstFree base)

variable {graph : Graph}

theorem mem_entryIds_iff {id : NodeId} :
    id ∈ (resolve graph).entries.map Prod.fst ↔
      ∃ node ∈ graph.nodes, node.id = id ∧ (node.kind = .agent ∨ node.kind = .task) := by
  unfold resolve
  rw [Identifiers.assign_ids, List.mem_map]
  simp only [List.mem_filter, isSome_name?_iff]
  constructor
  · rintro ⟨node, ⟨member, kind⟩, same⟩
    exact ⟨node, member, same, kind⟩
  · rintro ⟨node, member, same, kind⟩
    exact ⟨node, ⟨member, kind⟩, same⟩

theorem entryIds_nodup (unique : graph.UniqueNodes) :
    ((resolve graph).entries.map Prod.fst).Nodup := by
  unfold resolve
  rw [Identifiers.assign_ids]
  exact unique.sublist (List.filter_sublist.map Node.id)

theorem get?_of_unnamed (unique : graph.UniqueNodes) {node : Node} (member : node ∈ graph.nodes)
    (unnamed : ¬node.name?.isSome = true) : (resolve graph).get? node.id = none := by
  rw [← Option.not_isSome_iff_eq_none, Identifiers.get?_isSome_iff, mem_entryIds_iff]
  rintro ⟨other, present, same, kind⟩
  have isNode : other = node := List.inj_on_of_nodup_map unique present member same
  exact unnamed (isSome_name?_iff.mpr (isNode ▸ kind))

theorem entries_parts {before after : List Node} (parts : graph.nodes = before ++ after) :
    (resolve graph).entries = assign reserved before ++
      assign (((assign reserved before).map Prod.snd).reverse ++ reserved) after := by
  unfold resolve
  rw [parts]
  exact Identifiers.assign_append reserved before after

/-- The names given to some first nodes are those that naming these nodes alone gives. -/
theorem given_before (unique : graph.UniqueNodes) {before after : List Node}
    (parts : graph.nodes = before ++ after) :
    before.filterMap (fun node => (resolve graph).get? node.id) =
      (assign reserved before).map Prod.snd := by
  have named : before.filterMap (fun node => (resolve graph).get? node.id) =
      (before.filter (fun node => node.name?.isSome)).filterMap
        (fun node => (resolve graph).get? node.id) := by
    rw [List.filterMap_filter]
    apply List.filterMap_congr
    intro node member
    by_cases isNamed : node.name?.isSome = true
    · simp [isNamed]
    · have present : node ∈ graph.nodes := parts ▸ List.mem_append_left after member
      simp [isNamed, get?_of_unnamed unique present isNamed]
  have found : ∀ entry ∈ assign reserved before,
      (resolve graph).get? entry.1 = some entry.2 := by
    intro entry member
    apply Identifiers.get?_of_mem (entryIds_nodup unique)
    rw [entries_parts parts]
    exact List.mem_append_left _ member
  calc before.filterMap (fun node => (resolve graph).get? node.id)
      = ((before.filter (fun node => node.name?.isSome)).map Node.id).filterMap
          (resolve graph).get? := by rw [named, List.filterMap_map]; rfl
    _ = (assign reserved before).filterMap (fun entry => (resolve graph).get? entry.1) := by
        rw [← Identifiers.assign_ids reserved, List.filterMap_map]; rfl
    _ = (assign reserved before).map Prod.snd := by
        rw [← List.filterMap_eq_map]
        exact List.filterMap_congr found

theorem given_length (before : List Node) :
    ((assign reserved before).map Prod.snd).length =
      (before.filter (fun node => node.kind = .agent ∨ node.kind = .task)).length := by
  have ids := congrArg List.length (Identifiers.assign_ids reserved before)
  rw [List.length_map, List.length_map] at ids
  rw [List.length_map, ids]
  congr 1
  apply List.filter_congr
  intro node _
  exact Bool.eq_iff_iff.mpr (isSome_name?_iff.trans decide_eq_true_iff.symm)

theorem entry_mem {before after : List Node} {node : Node}
    (parts : graph.nodes = before ++ node :: after) {text : String}
    (named : node.name? = some text) :
    (node.id, firstFree (((assign reserved before).map Prod.snd).reverse ++ reserved)
      (base node.kind text)) ∈ (resolve graph).entries := by
  rw [entries_parts parts, assign, named]
  exact List.mem_append_right _ List.mem_cons_self

theorem firstFree_given (unique : graph.UniqueNodes) {before after : List Node} {node : Node}
    (parts : graph.nodes = before ++ node :: after) {text : String}
    (named : node.name? = some text) :
    ∃ failed name, (resolve graph).get? node.id = some name ∧
      Identifiers.FirstFree ((resolve graph).takenBehind before) (base node.kind text) failed name ∧
      failed ≤ (before.filter (fun node => node.kind = .agent ∨ node.kind = .task)).length + 7 := by
  obtain ⟨failed, bound, first⟩ := Identifiers.firstFree_isFirst
    (((assign reserved before).map Prod.snd).reverse ++ reserved) (base node.kind text)
  have given := Identifiers.get?_of_mem (entryIds_nodup unique) (entry_mem parts named)
  refine ⟨failed, _, given, first.congr ?_, ?_⟩
  · intro name
    rw [Identifiers.takenBehind, given_before unique parts, List.mem_append, List.mem_append,
      List.mem_reverse, or_comm]
  · rw [List.length_append, List.length_reverse, given_length] at bound
    exact bound

/-- Identifiers are given in the order of the nodes, each the first free name of its base. -/
theorem givenInOrder (unique : graph.UniqueNodes) : (resolve graph).GivenInOrder graph.nodes where
  givenIff := by
    intro id
    rw [Identifiers.get?_isSome_iff, mem_entryIds_iff]
  apart := by
    intro id other name first second
    have distinct := (Identifiers.assign_apart reserved graph.nodes).1
    have same := List.inj_on_of_nodup_map distinct (Identifiers.mem_of_get? first)
      (Identifiers.mem_of_get? second) rfl
    exact congrArg Prod.fst same
  shaped := by
    intro id name found
    have member := Identifiers.mem_of_get? found
    obtain ⟨known, kind, text, same⟩ := Identifiers.exists_of_mem_assign member
    refine ⟨?_, Identifiers.unbroken_of_mem_assign member, ?_⟩
    · change name = _ at same
      rw [same]
      exact Identifiers.firstFree_ne_empty (Identifiers.base_ne_empty kind text)
    · exact (Identifiers.assign_apart reserved graph.nodes).2 name (List.mem_map_of_mem member)
  firstFree := by
    intro before node after parts text named
    exact firstFree_given unique parts named

def suffixedNames : Graph where
  nodes :=
    [{ id := "t1", data := .task { name := "a b_2" } }, Node.plain .reroute "r",
      { id := "t2", data := .task { name := "a b" } },
      { id := "a1", data := .agent { name := "a\n b" } },
      { id := "a2", data := .agent { name := "" } }, Node.plain .begin "s",
      { id := "t3", data := .task { name := "a b_3" } },
      { id := "t4", data := .task { name := "crew" } }]

theorem suffixedNames_givenInOrder :
    suffixedNames.UniqueNodes ∧
      (resolve suffixedNames).entries =
        [("t1", "a_b_2"), ("t2", "a_b"), ("a1", "a_b_3"), ("a2", "agent_2"), ("t3", "a_b_3_2"),
          ("t4", "crew_2")] ∧
      (resolve suffixedNames).GivenInOrder suffixedNames.nodes := by
  have unique : suffixedNames.UniqueNodes := by decide
  exact ⟨unique, by decide +kernel, givenInOrder unique⟩

end Graph

end CrewCanvas
