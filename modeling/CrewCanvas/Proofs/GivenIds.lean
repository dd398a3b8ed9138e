/-
Ids that are given once.

Drops, connections and splits give ids to the nodes and the edges that they add.  A given id has
just been drawn, and belongs to no node and to no edge at that time.  A source that counts never
draws an id twice, so that along a whole session no id is given twice: not to what was deleted
since, and not because a graph was loaded or replaced.
-/

import CrewCanvas.Proofs.EditorRun
import CrewCanvas.Proofs.Naming

namespace CrewCanvas

open List (Perm)

/-! ### Ids of a graph that grows -/

theorem diff_perm_of_perm {before after new : List String} (grown : after.Perm (before ++ new)) :
    (after.diff before).Perm new := by
  have same : (before ++ new).diff before = new := by
    clear grown
    induction before with
    | nil => rfl
    | cons first rest ih => rw [List.cons_append, List.diff_cons, List.erase_cons_head, ih]
  exact same ▸ grown.diff_right before

namespace Graph

variable {graph next : Graph}

def ids (graph : Graph) : List String := graph.nodeIds ++ graph.edgeIds

theorem mem_ids_iff {id : String} : id ∈ graph.ids ↔ id ∈ graph.nodeIds ∨ id ∈ graph.edgeIds :=
  List.mem_append

theorem ids_perm_of_grown {nodes edges : List String}
    (grownNodes : next.nodeIds = graph.nodeIds ++ nodes)
    (grownEdges : next.edgeIds.Perm (graph.edgeIds ++ edges)) :
    next.ids.Perm (graph.ids ++ (nodes ++ edges)) := by
  unfold ids
  rw [grownNodes, List.append_assoc, List.append_assoc]
  refine Perm.append_left graph.nodeIds ?_
  calc (nodes ++ next.edgeIds).Perm (nodes ++ (graph.edgeIds ++ edges)) :=
        grownEdges.append_left nodes
    _ = nodes ++ graph.edgeIds ++ edges := (List.append_assoc nodes graph.edgeIds edges).symm
    _ |>.Perm (graph.edgeIds ++ nodes ++ edges) := List.perm_append_comm.append_right edges
    _ = graph.edgeIds ++ (nodes ++ edges) := List.append_assoc graph.edgeIds nodes edges

theorem addNode_ids {node : Node} (added : graph.addNode node = .ok next) :
    next.ids.Perm (graph.ids ++ [node.id]) := by
  obtain ⟨_, _, shape⟩ := addNode_eq_ok_iff.mp added
  have nodes : next.nodeIds = graph.nodeIds ++ [node.id] := by
    rw [shape, nodeIds, nodeIds, List.map_append, List.map_singleton]
  have edges : next.edgeIds = graph.edgeIds ++ [] := by rw [shape, List.append_nil, edgeIds, edgeIds]
  exact ids_perm_of_grown nodes (Perm.of_eq edges)

theorem addEdge_ids (graph : Graph) (connection : Connection) (id : EdgeId) :
    (graph.addEdge connection id).1.ids.Perm (graph.ids ++ []) ∨
      (graph.addEdge connection id).1.ids.Perm (graph.ids ++ [id]) := by
  have change := graph.change_addEdge connection id
  generalize (graph.addEdge connection id).1 = next at change
  cases change with
  | refused _ => exact Or.inl (Perm.of_eq (List.append_nil _).symm)
  | edgeRejected _ => exact Or.inl (Perm.of_eq (List.append_nil _).symm)
  | edgeAdded _ =>
      right
      have nodes (edges : List Edge) :
          nodeIds ⟨(graph.claim? connection.target (graph.judge connection).claim).nodes, edges⟩ =
            graph.nodeIds ++ [] :=
        (nodeIds_claim? graph connection.target _).trans (List.append_nil _).symm
      exact ids_perm_of_grown (nodes _) (Perm.of_eq List.map_append)

theorem splitEdge_ids {id tailId : EdgeId} {given : Node}
    (split : graph.splitEdge id given tailId = .ok next) :
    next.ids.Perm (graph.ids ++ [given.id, tailId]) := by
  obtain ⟨edge, source, found, _, _, _, _, shape⟩ := splitEdge_eq_ok_iff.mp split
  obtain ⟨front, back, parts, divided⟩ := Edge.subdivide_parts given.id tailId found
  apply ids_perm_of_grown (splitEdge_map (fun _ _ => rfl) split)
  unfold edgeIds
  rw [shape, divided, parts]
  simp only [List.map_append, List.map_cons, List.append_assoc, List.cons_append]
  refine Perm.append_left _ (Perm.cons _ ?_)
  exact (List.perm_append_singleton tailId _).symm

end Graph

namespace Editor

/-! ### Ids that an action gives -/

def Action.givesIds : Action → Bool
  | dropNode _ _ _ => true
  | connect _ => true
  | splitEdge _ _ => true
  | _ => false

/-- The ids an action gives to new nodes and edges: those that the graph has more of after it. -/
def Action.given (editor : Editor) (action : Action) : List String :=
  if action.givesIds then (editor.act action).graph.ids.diff editor.graph.ids else []

structure Gives (editor after : Editor) (given : List String) : Prop where
  drawn : ∃ draws, after.ids = editor.ids.skip draws ∧
    ∀ id ∈ given, ∃ earlier < draws, id = editor.ids.ahead earlier
  distinct : given.Nodup
  unused : ∀ id ∈ given, id ∉ editor.graph.ids

variable {editor after : Editor}

theorem Gives.perm {given other : List String} (gives : Gives editor after given)
    (perm : other.Perm given) : Gives editor after other where
  drawn := by
    obtain ⟨draws, ids, each⟩ := gives.drawn
    exact ⟨draws, ids, fun id member => each id (perm.subset member)⟩
  distinct := perm.nodup_iff.mpr gives.distinct
  unused := fun id member => gives.unused id (perm.subset member)

theorem gives_nothing {draws : Nat} (ids : after.ids = editor.ids.skip draws) :
    Gives editor after [] where
  drawn := ⟨draws, ids, fun _ member => absurd member List.not_mem_nil⟩
  distinct := List.nodup_nil
  unused := fun _ member => absurd member List.not_mem_nil

theorem notMem_ids_of_isFree {graph : Graph} {reserved : List String} {id : String}
    (free : isFree graph reserved id = true) : id ∉ graph.ids := by
  obtain ⟨node, edge, _⟩ := isFree_iff.mp free
  exact fun member => (Graph.mem_ids_iff.mp member).elim node edge

theorem gives_one {draws : Nat} (free : isFree editor.graph [] (editor.ids.ahead draws) = true)
    (next : Graph) :
    Gives editor { editor.drawing (draws + 1) with graph := next } [editor.ids.ahead draws] where
  drawn := by
    refine ⟨draws + 1, rfl, ?_⟩
    intro id member
    exact ⟨draws, Nat.lt_succ_self draws, List.mem_singleton.mp member⟩
  distinct := List.nodup_singleton _
  unused := by
    intro id member
    rw [List.mem_singleton.mp member]
    exact notMem_ids_of_isFree free

theorem gives_two {first second : Nat} (less : first < second)
    (freeNode : isFree editor.graph [] (editor.ids.ahead first) = true)
    (freeEdge : isFree editor.graph [editor.ids.ahead first] (editor.ids.ahead second) = true)
    (next : Graph) :
    Gives editor { editor.drawing (second + 1) with graph := next }
      [editor.ids.ahead first, editor.ids.ahead second] where
  drawn := by
    refine ⟨second + 1, rfl, ?_⟩
    intro id member
    rcases List.mem_pair.mp member with isNode | isEdge
    · exact ⟨first, Nat.lt_succ_of_lt less, isNode⟩
    · exact ⟨second, Nat.lt_succ_self second, isEdge⟩
  distinct := by
    refine List.nodup_cons.mpr ⟨?_, List.nodup_singleton _⟩
    intro same
    have reserved := (isFree_iff.mp freeEdge).2.2
    exact reserved (List.mem_singleton.mpr (List.mem_singleton.mp same).symm)
  unused := by
    intro id member
    rcases List.mem_pair.mp member with isNode | isEdge
    · exact isNode ▸ notMem_ids_of_isFree freeNode
    · exact isEdge ▸ notMem_ids_of_isFree freeEdge

/-- An action that can give ids keeps the old ones and gives new ones, if any. -/
theorem grown_of_givesIds (editor : Editor) {action : Action} (givesIds : action.givesIds = true) :
    ∃ new, (editor.act action).graph.ids.Perm (editor.graph.ids ++ new) ∧
      Gives editor (editor.act action) new := by
  have unchanged : editor.graph.ids.Perm (editor.graph.ids ++ []) :=
    Perm.of_eq (List.append_nil _).symm
  cases action with
  | dropNode kind position saved =>
      unfold act
      rcases editor.dropNode_cases kind position saved with
        ⟨_, draws, outcome⟩ | ⟨data, draws, next, _, free, added, outcome⟩
      · simp only [outcome]
        exact ⟨[], unchanged, gives_nothing rfl⟩
      · simp only [outcome]
        exact ⟨[editor.ids.ahead draws], Graph.addNode_ids added, gives_one free next⟩
  | connect connection =>
      unfold act
      rcases editor.connect_cases connection with ⟨draws, outcome⟩ | ⟨draws, free, outcome⟩
      · simp only [outcome]
        exact ⟨[], unchanged, gives_nothing rfl⟩
      · simp only [outcome]
        rcases editor.graph.addEdge_ids connection (editor.ids.ahead draws) with same | grown
        · exact ⟨[], same, gives_nothing rfl⟩
        · exact ⟨[editor.ids.ahead draws], grown, gives_one free _⟩
  | splitEdge id position =>
      unfold act
      rcases editor.splitEdge_cases id position with
        ⟨_, draws, outcome, _⟩ | ⟨first, second, next, less, freeNode, freeEdge, made, outcome⟩
      · simp only [outcome]
        exact ⟨[], unchanged, gives_nothing rfl⟩
      · simp only [outcome]
        exact ⟨[editor.ids.ahead first, editor.ids.ahead second], Graph.splitEdge_ids made,
          gives_two less freeNode freeEdge next⟩
  | _ => cases givesIds

/-- The other actions draw no ids. -/
theorem ids_act_of_not_givesIds (editor : Editor) {action : Action}
    (noIds : action.givesIds = false) : (editor.act action).ids = editor.ids := by
  cases action with
  | change id field value =>
      change (editor.change id field value).2.ids = editor.ids
      unfold change
      split <;> rfl
  | select id => rfl
  | deleteSelected =>
      change editor.deleteSelected.2.ids = editor.ids
      unfold deleteSelected deleteNode
      split
      · rfl
      · split <;> rfl
  | deleteNode id =>
      change (editor.deleteNode id).ids = editor.ids
      unfold deleteNode
      split <;> rfl
  | deleteEdge id =>
      change (editor.deleteEdge id).ids = editor.ids
      unfold deleteEdge
      split <;> rfl
  | load down records name =>
      change ((editor.load name).run down records).1.2.ids = editor.ids
      cases blank : Text.isBlankText name with
      | true => rw [run_load_blank editor blank]
      | false =>
          rw [run_load editor blank]
          cases Store.loaded down records name <;> rfl
  | dropNode kind position saved => cases noIds
  | connect connection => cases noIds
  | splitEdge id position => cases noIds

theorem given_perm {action : Action} (givesIds : action.givesIds = true) {new : List String}
    (grown : (editor.act action).graph.ids.Perm (editor.graph.ids ++ new)) :
    (action.given editor).Perm new := by
  unfold Action.given
  rw [if_pos givesIds]
  exact diff_perm_of_perm grown

theorem gives_act (editor : Editor) (action : Action) :
    Gives editor (editor.act action) (action.given editor) := by
  cases givesIds : action.givesIds with
  | false =>
      unfold Action.given
      rw [if_neg (by simp [givesIds])]
      exact gives_nothing ((ids_act_of_not_givesIds editor givesIds).trans editor.ids.skip_zero.symm)
  | true =>
      obtain ⟨new, grown, gives⟩ := editor.grown_of_givesIds givesIds
      exact gives.perm (given_perm givesIds grown)

/-! ### Sessions -/

/-- A step of a session: an action of the canvas, or another graph put in the place of the
snapshot. -/
inductive Step
  | act (action : Action)
  | replace (graph : Graph)

def Step.given (editor : Editor) : Step → List String
  | act action => action.given editor
  | replace _ => []

def take (editor : Editor) : Step → Editor
  | .act action => editor.act action
  | .replace graph => editor.withGraph graph

def session (editor : Editor) (steps : List Step) : Editor := steps.foldl take editor

def givenAlong (editor : Editor) : List Step → List String
  | [] => []
  | step :: rest => step.given editor ++ givenAlong (editor.take step) rest

theorem gives_take (editor : Editor) (step : Step) :
    Gives editor (editor.take step) (step.given editor) := by
  cases step with
  | act action => exact gives_act editor action
  | replace graph => exact gives_nothing editor.ids.skip_zero.symm

/-- What is given later has been drawn later. -/
theorem drawn_of_mem_givenAlong {steps : List Step} {id : String}
    (member : id ∈ editor.givenAlong steps) : ∃ draws, id = editor.ids.ahead draws := by
  induction steps generalizing editor with
  | nil => cases member
  | cons step rest ih =>
      obtain ⟨draws, ids, each⟩ := (gives_take editor step).drawn
      rcases List.mem_append.mp member with now | later
      · obtain ⟨earlier, _, same⟩ := each id now
        exact ⟨earlier, same⟩
      · obtain ⟨more, same⟩ := ih later
        rw [ids, IdSource.ahead_skip] at same
        exact ⟨draws + more, same⟩

/-- A source that draws no id twice gives no id twice. -/
theorem givenAlong_nodup (injective : Function.Injective editor.ids.draw) (steps : List Step) :
    (editor.givenAlong steps).Nodup := by
  induction steps generalizing editor with
  | nil => exact List.nodup_nil
  | cons step rest ih =>
      have gives := gives_take editor step
      obtain ⟨draws, ids, each⟩ := gives.drawn
      have later : Function.Injective (editor.take step).ids.draw := ids ▸ injective
      refine List.nodup_append.mpr ⟨gives.distinct, ih later, ?_⟩
      intro id now other afterwards same
      obtain ⟨earlier, less, isEarlier⟩ := each id now
      obtain ⟨more, isLater⟩ := drawn_of_mem_givenAlong afterwards
      rw [ids, IdSource.ahead_skip, ← same, isEarlier] at isLater
      have counts := injective isLater
      omega

theorem sequential_injective (lead : String) :
    Function.Injective (IdSource.sequential lead).draw := by
  intro count other same
  have digits : toString count = toString other := (String.append_right_inj lead).mp same
  rwa [Nat.toString_eq_repr, Nat.toString_eq_repr, Nat.repr_inj] at digits

/-- Every id that a session gives is new: it was not given before, and no node and no edge has
it.  Together with the ids that were there, the given ids are those after the action. -/
structure GivesOnce (start : Editor) (steps : List Step) : Prop where
  distinct : (start.givenAlong steps).Nodup
  unused : ∀ earlier step later, steps = earlier ++ step :: later →
    ∀ id ∈ step.given (start.session earlier),
      id ∉ (start.session earlier).graph.nodeIds ∧ id ∉ (start.session earlier).graph.edgeIds
  grown : ∀ earlier action later, steps = earlier ++ .act action :: later →
    action.givesIds = true →
      ((start.session earlier).act action).graph.ids.Perm
        ((start.session earlier).graph.ids ++ action.given (start.session earlier))

/-- With ids that count up, whatever they start with, a session gives no id twice. -/
theorem sequential_givesOnce (editor : Editor) (lead : String) (steps : List Step) :
    GivesOnce { editor with ids := .sequential lead } steps where
  distinct := givenAlong_nodup (sequential_injective lead) steps
  unused := by
    intro earlier step later _ id member
    have notUsed := (gives_take _ step).unused id member
    rw [Graph.mem_ids_iff, not_or] at notUsed
    exact notUsed
  grown := by
    intro earlier action later _ givesIds
    obtain ⟨new, grown, _⟩ := grown_of_givesIds _ givesIds
    exact grown.trans ((given_perm givesIds grown).symm.append_left _)

/-- A deleted id is not given again, and one that came with another graph is left out. -/
example :
    (ofIds (.sequential "n")).givenAlong
      [.act (.dropNode .task {} none), .act (.deleteNode "n0"),
        .replace { nodes := [Node.plain .begin "n1"] }, .act (.dropNode .task {} none),
        .act (.connect ⟨"n1", some .execOut, "n2", some .execIn⟩),
        .act (.splitEdge "n3" {})] = ["n0", "n2", "n3", "n4", "n5"] := by decide

end Editor

end CrewCanvas
