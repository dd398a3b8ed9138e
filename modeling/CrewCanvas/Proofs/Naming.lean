/-
Names of agents and tasks.

An identifier differs from all names that are reserved or were given before, because of as
many suffixes as there are such names, one is free.  So no two agents or tasks share an
identifier.  No identifier has a blank.
-/

import CrewCanvas.Identifier
import CrewCanvas.Proofs.BlankRuns
import Mathlib.Data.List.Nodup
import Mathlib.Data.List.Perm.Subperm
import Std.Data.String.ToNat

namespace CrewCanvas

namespace Identifiers

/-! ### Free names -/

theorem suffixed_inj {base : String} {count other : Nat} :
    suffixed base count = suffixed base other ↔ count = other := by
  unfold suffixed
  rw [String.append_right_inj, Nat.toString_eq_repr, Nat.toString_eq_repr, Nat.repr_inj]

theorem suffixed_ne (base : String) (count : Nat) : suffixed base count ≠ base := by
  intro same
  have lengths := congrArg String.length same
  simp only [suffixed, String.length_append] at lengths
  have mark : "_".length = 1 := by decide
  omega

def candidates (taken : List String) (base : String) : List String :=
  (List.range taken.length).map (fun step => suffixed base (step + 2))

theorem candidates_nodup (taken : List String) (base : String) :
    (base :: candidates taken base).Nodup := by
  refine List.nodup_cons.mpr ⟨?_, ?_⟩
  · intro member
    obtain ⟨step, _, same⟩ := List.mem_map.mp member
    exact suffixed_ne base (step + 2) same
  · apply List.nodup_range.map
    intro step other same
    exact Nat.add_right_cancel (suffixed_inj.mp same)

theorem exists_free_candidate {taken : List String} {base : String} (isTaken : base ∈ taken) :
    ∃ name ∈ candidates taken base, name ∉ taken := by
  apply Decidable.byContradiction
  intro none
  have all : base :: candidates taken base ⊆ taken := by
    intro name member
    rcases List.mem_cons.mp member with isBase | isCandidate
    · exact isBase ▸ isTaken
    · exact Decidable.byContradiction (fun free => none ⟨name, isCandidate, free⟩)
  -- The base and its candidates are one more than the names that are taken.
  have bound := ((candidates_nodup taken base).subperm all).length_le
  simp only [candidates, List.length_cons, List.length_map, List.length_range] at bound
  omega

/-- The free name is the base, or the first of its candidates that is not taken. -/
theorem firstFree_cases (taken : List String) (base : String) :
    (base ∉ taken ∧ firstFree taken base = base) ∨
      (base ∈ taken ∧ (candidates taken base).find? (fun name => name ∉ taken) =
        some (firstFree taken base)) := by
  unfold firstFree
  by_cases isTaken : base ∈ taken
  · rw [if_pos isTaken]
    refine Or.inr ⟨isTaken, ?_⟩
    obtain ⟨name, isCandidate, free⟩ := exists_free_candidate isTaken
    have found : ((candidates taken base).find? (fun name => name ∉ taken)).isSome = true :=
      List.find?_isSome.mpr ⟨name, isCandidate, by simpa using free⟩
    obtain ⟨first, isFirst⟩ := Option.isSome_iff_exists.mp found
    unfold candidates at isFirst ⊢
    rw [isFirst]
    rfl
  · rw [if_neg isTaken]
    exact Or.inl ⟨isTaken, rfl⟩

theorem firstFree_notMem (taken : List String) (base : String) : firstFree taken base ∉ taken := by
  rcases firstFree_cases taken base with ⟨free, same⟩ | ⟨_, found⟩
  · rw [same]
    exact free
  · simpa using List.find?_some found

/-! ### Names without blanks -/

def Unbroken (name : String) : Prop := ∀ c ∈ name.toList, Text.isBlank c = false

instance (name : String) : Decidable (Unbroken name) :=
  List.decidableBAll _ name.toList

theorem unbroken_sanitize (name : String) : Unbroken (Text.sanitize name) := by
  intro c member
  rw [Text.toList_sanitize] at member
  exact Text.isBlank_of_mem_underscoreRuns member

theorem unbroken_base (kind : NodeKind) (name : String) : Unbroken (base kind name) := by
  unfold base
  simp only
  split
  · cases kind <;> decide
  · exact unbroken_sanitize name

theorem isBlank_of_isDigit {c : Char} (digit : c.isDigit = true) : Text.isBlank c = false := by
  simp only [Char.isDigit, ge_iff_le, Bool.and_eq_true, decide_eq_true_eq,
    UInt32.le_iff_toNat_le] at digit
  have range : 48 ≤ c.toNat ∧ c.toNat ≤ 57 := digit
  simp only [Text.isBlank, Bool.or_eq_false_iff, Bool.and_eq_false_iff, decide_eq_false_iff_not,
    beq_eq_false_iff_ne]
  omega

theorem unbroken_suffixed {name : String} (unbroken : Unbroken name) (count : Nat) :
    Unbroken (suffixed name count) := by
  intro c member
  simp only [suffixed, String.toList_append, List.mem_append] at member
  rcases member with (inName | isUnderscore) | isDigit
  · exact unbroken c inName
  · have mark : Unbroken "_" := by decide
    exact mark c isUnderscore
  · rw [Nat.toString_eq_repr, Nat.toList_repr] at isDigit
    exact isBlank_of_isDigit (Nat.isDigit_of_mem_toDigits (by decide) (by decide) isDigit)

theorem unbroken_firstFree {name : String} (unbroken : Unbroken name) (taken : List String) :
    Unbroken (firstFree taken name) := by
  rcases firstFree_cases taken name with ⟨_, same⟩ | ⟨_, found⟩
  · exact same.symm ▸ unbroken
  · obtain ⟨step, _, same⟩ := List.mem_map.mp (List.mem_of_find?_eq_some found)
    exact same ▸ unbroken_suffixed unbroken (step + 2)

/-! ### The identifiers of a graph -/

theorem assign_ids (taken : List String) (nodes : List Node) :
    (assign taken nodes).map Prod.fst =
      (nodes.filter (fun node => node.name?.isSome)).map Node.id := by
  induction nodes generalizing taken with
  | nil => rfl
  | cons node rest ih =>
      rw [assign]
      cases named : node.name? with
      | none => simp [named, ih]
      | some name => simp [named, ih]

theorem assign_apart (taken : List String) (nodes : List Node) :
    ((assign taken nodes).map Prod.snd).Nodup ∧
      ∀ name ∈ (assign taken nodes).map Prod.snd, name ∉ taken := by
  induction nodes generalizing taken with
  | nil => exact ⟨List.nodup_nil, fun _ member => absurd member List.not_mem_nil⟩
  | cons node rest ih =>
      rw [assign]
      cases node.name? with
      | none => exact ih taken
      | some name =>
          obtain ⟨unique, apart⟩ := ih (firstFree taken (base node.kind name) :: taken)
          constructor
          · refine List.nodup_cons.mpr ⟨?_, unique⟩
            intro again
            exact apart _ again List.mem_cons_self
          · intro other member known
            rcases List.mem_cons.mp member with isFirst | later
            · rw [isFirst] at known
              exact firstFree_notMem taken (base node.kind name) known
            · exact apart other later (List.mem_cons_of_mem _ known)

theorem exists_of_mem_assign {taken : List String} {nodes : List Node} {entry : NodeId × String}
    (member : entry ∈ assign taken nodes) :
    ∃ known kind name, entry.2 = firstFree known (base kind name) := by
  induction nodes generalizing taken with
  | nil => cases member
  | cons node rest ih =>
      rw [assign] at member
      split at member
      · exact ih member
      · rename_i name _
        rcases List.mem_cons.mp member with isFirst | later
        · exact ⟨taken, node.kind, name, congrArg Prod.snd isFirst⟩
        · exact ih later

theorem unbroken_of_mem_assign {taken : List String} {nodes : List Node} {entry : NodeId × String}
    (member : entry ∈ assign taken nodes) : Unbroken entry.2 := by
  obtain ⟨known, kind, name, same⟩ := exists_of_mem_assign member
  rw [same]
  exact unbroken_firstFree (unbroken_base kind name) known

theorem get?_of_mem {identifiers : Identifiers}
    (unique : (identifiers.entries.map Prod.fst).Nodup) {entry : NodeId × String}
    (member : entry ∈ identifiers.entries) : identifiers.get? entry.1 = some entry.2 := by
  obtain ⟨entries⟩ := identifiers
  unfold get?
  induction entries with
  | nil => cases member
  | cons first rest ih =>
      rw [List.map_cons, List.nodup_cons] at unique
      rcases List.mem_cons.mp member with isFirst | later
      · simp [isFirst]
      · have different : first.1 ≠ entry.1 := by
          intro same
          exact unique.1 (same ▸ List.mem_map_of_mem later)
        simpa [different] using ih unique.2 later

theorem map_of_eq {identifiers : Identifiers} {nodes : List Node}
    {entries : List (NodeId × String)} (ids : entries.map Prod.fst = nodes.map Node.id)
    (found : ∀ entry ∈ entries, identifiers.get? entry.1 = some entry.2) :
    nodes.map identifiers.of = entries.map Prod.snd := by
  induction entries generalizing nodes with
  | nil => simpa using ids
  | cons entry rest ih =>
      cases nodes with
      | nil => cases ids
      | cons node others =>
          rw [List.map_cons, List.map_cons, List.cons.injEq] at ids
          have first : identifiers.of node = entry.2 := by
            unfold of
            rw [← ids.1, found entry List.mem_cons_self]
            rfl
          rw [List.map_cons, List.map_cons, first,
            ih ids.2 (fun other member => found other (List.mem_cons_of_mem _ member))]

theorem unbroken_of (graph : Graph) (node : Node) : Unbroken ((resolve graph).of node) := by
  unfold of get?
  cases found : (resolve graph).entries.find? (fun entry => entry.1 = node.id) with
  | none => exact unbroken_sanitize _
  | some entry => exact unbroken_of_mem_assign (List.mem_of_find?_eq_some found)

end Identifiers

namespace Graph

open Identifiers (resolve)

variable {graph : Graph}

theorem isSome_name?_iff {node : Node} :
    node.name?.isSome = true ↔ node.kind = .agent ∨ node.kind = .task := by
  obtain ⟨id, position, data⟩ := node
  cases data <;> simp [Node.name?, NodeData.name?, Node.kind, NodeData.kind]

theorem of_injOn (unique : graph.UniqueNodes) {node other : Node} (member : node ∈ graph.nodes)
    (named : node.name?.isSome = true) (otherMember : other ∈ graph.nodes)
    (otherNamed : other.name?.isSome = true)
    (same : (resolve graph).of node = (resolve graph).of other) : node = other := by
  have ids := Identifiers.assign_ids Identifiers.reserved graph.nodes
  have uniqueIds : ((resolve graph).entries.map Prod.fst).Nodup := by
    rw [resolve, ids]
    exact unique.sublist (List.filter_sublist.map Node.id)
  have names := Identifiers.map_of_eq ids (fun _ => Identifiers.get?_of_mem uniqueIds)
  have distinct := (Identifiers.assign_apart Identifiers.reserved graph.nodes).1
  rw [← names] at distinct
  exact List.inj_on_of_nodup_map distinct (List.mem_filter.mpr ⟨member, named⟩)
    (List.mem_filter.mpr ⟨otherMember, otherNamed⟩) same

/-- No two agents or tasks share an identifier. -/
theorem identifiers_nodup (unique : graph.UniqueNodes) :
    ((graph.agents ++ graph.tasks).map (resolve graph).of).Nodup := by
  have nodes : graph.nodes.Nodup := unique.of_map Node.id
  have each : (graph.agents ++ graph.tasks).Nodup := by
    refine List.nodup_append.mpr ⟨nodes.filter _, nodes.filter _, ?_⟩
    intro agent isAgent task isTask same
    have agentKind := (List.mem_filter.mp isAgent).2
    have taskKind := (List.mem_filter.mp isTask).2
    simp only [decide_eq_true_eq] at agentKind taskKind
    rw [same, taskKind] at agentKind
    cases agentKind
  have named (node : Node) (member : node ∈ graph.agents ++ graph.tasks) :
      node ∈ graph.nodes ∧ node.name?.isSome = true := by
    rw [isSome_name?_iff]
    rcases List.mem_append.mp member with isAgent | isTask
    · obtain ⟨present, kind⟩ := List.mem_filter.mp isAgent
      exact ⟨present, Or.inl (by simpa using kind)⟩
    · obtain ⟨present, kind⟩ := mem_tasks_iff.mp isTask
      exact ⟨present, Or.inr kind⟩
  apply each.map_on
  intro node member other otherMember same
  have first := named node member
  have second := named other otherMember
  exact of_injOn unique first.1 first.2 second.1 second.2 same

end Graph

end CrewCanvas
