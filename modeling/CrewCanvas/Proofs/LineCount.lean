/-
The number of lines of the scaffold.

A scaffold has as many lines as its agents, its tasks, their contexts and the tools ask for.
What names, tools and paths hold adds no line and returns to no line.
-/

import CrewCanvas.Proofs.CrossReferences

namespace CrewCanvas

namespace Scaffold

/-! ### The lines of the parts -/

def usesTools (graph : Graph) : Bool :=
  (graph.agents.filterMap Node.agent?).any (fun data => !data.toolNames.isEmpty)

def hasContext (graph : Graph) (task : Node) : Bool := !(graph.predecessors task.id).isEmpty

theorem isEmpty_importedTools (graph : Graph) :
    (importedTools graph).isEmpty = !usesTools graph := by
  rw [importedTools, isEmpty_distinct, usesTools]
  induction graph.agents.filterMap Node.agent? with
  | nil => rfl
  | cons data rest ih =>
      rw [List.any_cons, Bool.not_or, ← ih, Bool.not_not, List.flatMap_cons, toolIdentifiers]
      cases data.toolNames <;> rfl

theorem length_importLines (graph : Graph) :
    (importLines (importedTools graph)).length = 4 + (usesTools graph).toNat := by
  rw [importLines, isEmpty_importedTools]
  cases usesTools graph <;> rfl

theorem length_agentParts {α : Type} (verbose : Bool) (identifier : α → String)
    (tools : α → List String) (agents : List α) :
    (agents.flatMap (fun agent => agentLines verbose (identifier agent) (tools agent))).length =
      8 * agents.length := by
  induction agents with
  | nil => rfl
  | cons agent rest ih =>
      rw [List.flatMap_cons, List.length_append, ih, List.length_cons, Nat.mul_succ, Nat.add_comm]
      rfl

theorem length_taskLines (identifier : String) (context : List String) :
    (taskLines identifier context).length = 7 + if context.isEmpty then 0 else 1 := by
  rw [taskLines]
  cases context <;> rfl

theorem length_taskParts {α : Type} (identifier : α → String) (context : α → List String)
    (tasks : List α) :
    (tasks.flatMap (fun task => taskLines (identifier task) (context task))).length =
      7 * tasks.length + tasks.countP (fun task => !(context task).isEmpty) := by
  induction tasks with
  | nil => rfl
  | cons task rest ih =>
      rw [List.flatMap_cons, List.length_append, ih, length_taskLines, List.length_cons,
        List.countP_cons]
      cases (context task).isEmpty <;> simp <;> omega

theorem length_crewLines (verbose : Bool) (agents tasks : List String) :
    (crewLines verbose agents tasks).length = 10 :=
  rfl

theorem length_classLines (settings : CompileSettings) : (classLines settings).length = 6 :=
  rfl

/-! ### The text -/

variable {graph : Graph}

/-- The lines that are built.  Their tasks are those of the sequence, each of them once. -/
theorem length_lines (unique : graph.UniqueNodes) (settings : CompileSettings) :
    (lines graph settings).length =
      20 + (usesTools graph).toNat + 8 * graph.agents.length + 7 * graph.tasks.length +
        graph.tasks.countP (hasContext graph) := by
  have ordered := Graph.sequencedTasks_perm unique
  have agents : (agentRecords graph).length = graph.agents.length := by
    simpa using congrArg List.length (map_agentRecords graph id)
  have contexts : (fun task : Node =>
      !((graph.predecessors task.id).map (Identifiers.resolve graph).of).isEmpty) =
        hasContext graph := by
    funext task
    rw [List.isEmpty_map, hasContext]
  rw [agentRecords] at agents
  simp only [lines, List.length_append, length_importLines, length_classLines, length_agentParts,
    length_taskParts, length_crewLines, agents, contexts, ordered.length_eq, ordered.countP_eq]
  omega

/-- No line returns to its start. -/
theorem carriage_notMem_scaffold (graph : Graph) (settings : CompileSettings) :
    '\r' ∉ (graph.scaffold settings).toList := by
  intro member
  rw [Graph.scaffold, Text.joinWith, String.toList_intercalate] at member
  rcases mem_intercalate member with inSeparator | ⟨chars, inLines, inLine⟩
  · exact absurd inSeparator (by decide)
  · exact notMem_lines (Or.inr rfl) graph settings chars inLines inLine

/-- Every line but the last one ends in the one break behind it. -/
theorem count_scaffold (graph : Graph) (settings : CompileSettings) :
    (graph.scaffold settings).toList.count '\n' + 1 = (lines graph settings).length := by
  rw [Graph.scaffold, Text.joinWith, String.toList_intercalate, ← List.length_map String.toList]
  apply count_intercalate
  · simp [lines, crewLines]
  · exact notMem_lines (Or.inl rfl) graph settings

/-- What names, tools and paths hold adds no line to the scaffold. -/
theorem lineBreaks_scaffold (unique : graph.UniqueNodes) (settings : CompileSettings) :
    '\r' ∉ (graph.scaffold settings).toList ∧
      (graph.scaffold settings).toList.count '\n' =
        19 + (usesTools graph).toNat + 8 * graph.agents.length + 7 * graph.tasks.length +
          graph.tasks.countP (hasContext graph) := by
  refine ⟨carriage_notMem_scaffold graph settings, ?_⟩
  have lines := count_scaffold graph settings
  rw [length_lines unique settings] at lines
  omega

def brokenGraph : Graph :=
  { nodes :=
      [{ id := "w", data := .agent { name := "a\n@agent\r", tools := "find\nfiles, \r\n" } },
        { id := "b", data := .begin },
        { id := "s", data := .task { name := "a\r\n\r\n" } },
        { id := "t", data := .task { name := "\u2028crew\u0085" } }]
    edges :=
      [⟨"e1", "b", some .execOut, "s", some .execIn, false⟩,
        ⟨"e2", "s", some .execOut, "t", some .execIn, false⟩] }

def brokenSettings : CompileSettings where
  crewName := "Crew:\n    pass"
  agentsPath := "agents.yaml'\r"
  tasksPath := "\ntasks.yaml"

theorem brokenGraph_lineBreaks :
    brokenGraph.UniqueNodes ∧ usesTools brokenGraph = true ∧
      brokenGraph.tasks.countP (hasContext brokenGraph) = 1 ∧
      '\r' ∉ (brokenGraph.scaffold brokenSettings).toList ∧
      (brokenGraph.scaffold brokenSettings).toList.count '\n' = 43 := by
  have unique : brokenGraph.UniqueNodes := by decide
  have tools : usesTools brokenGraph = true := by decide
  have contexts : brokenGraph.tasks.countP (hasContext brokenGraph) = 1 := by cbv
  obtain ⟨noReturn, breaks⟩ := lineBreaks_scaffold unique brokenSettings
  rw [tools, contexts] at breaks
  exact ⟨unique, tools, contexts, noReturn, breaks⟩

end Scaffold

end CrewCanvas
