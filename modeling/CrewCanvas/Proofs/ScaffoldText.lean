/-
The crew read from the scaffold.

The lines of the scaffold are a header and sections, one for each agent, one for each task of
the sequence and one for the crew.  Only a section starts with a decorator, so the reader
finds each section, and what it reads there is what was written.
-/

import CrewCanvas.Proofs.ScaffoldReader

namespace CrewCanvas.Scaffold

/-! ### Sections -/

structure Section where
  decorator : String
  body : List String

def Section.lines (part : Section) : List String :=
  "" :: part.decorator :: (part.body ++ [closing])

def decorators : List String := [agentKind.decorator, taskKind.decorator, crewDecorator]

def Plain (line : String) : Prop := line ≠ closing ∧ line ∉ decorators

instance (line : String) : Decidable (Plain line) := inferInstanceAs (Decidable (_ ∧ _))

theorem plain_of_start {line : String}
    (start : line.toList.find? (fun c => c ≠ ' ') ∉ [some '@', some ')']) : Plain line := by
  have marks : ∀ mark ∈ closing :: decorators,
      mark.toList.find? (fun c => c ≠ ' ') ∈ [some '@', some ')'] := by decide
  constructor
  · intro same
    exact start (same ▸ marks closing List.mem_cons_self)
  · intro member
    exact start (marks line (List.mem_cons_of_mem _ member))

theorem plain_indented {level : Nat} {line : String}
    (start : line.toList.find? (fun c => c ≠ ' ') ∉ [some '@', some ')']) :
    Plain (indented level line) := by
  apply plain_of_start
  rw [toList_indented, List.find?_append, List.find?_replicate]
  simpa using start

theorem blocks_plain {decorator : String} {before : List String}
    (plain : ∀ line ∈ before, line ≠ decorator) (after : List String) :
    blocks decorator (before ++ after) = blocks decorator after := by
  induction before with
  | nil => rfl
  | cons line rest ih =>
      rw [List.cons_append, blocks, if_neg (plain line List.mem_cons_self),
        ih (fun other member => plain other (List.mem_cons_of_mem _ member))]

theorem blocks_section {decorator : String} (known : decorator ∈ decorators) {part : Section}
    (plain : ∀ line ∈ part.body, Plain line) (after : List String) :
    blocks decorator (part.lines ++ after) =
      (if part.decorator = decorator then [part.body] else []) ++ blocks decorator after := by
  have ends : closing ≠ decorator := by
    intro same
    exact absurd (same ▸ known) (by decide)
  have starts : "" ≠ decorator := by
    intro same
    exact absurd (same ▸ known) (by decide)
  have inside : ∀ line ∈ part.body ++ [closing], line ≠ decorator := by
    intro line member same
    rcases List.mem_append.mp member with inBody | isClosing
    · exact (plain line inBody).2 (same ▸ known)
    · exact ends (List.mem_singleton.mp isClosing ▸ same)
  have later := blocks_plain inside after
  rw [Section.lines, List.cons_append, List.cons_append, blocks, if_neg starts, blocks, later]
  split
  · -- The block ends at its closing line, since no line of the body is one.
    have body : (part.body ++ [closing] ++ after).takeWhile (fun line => line ≠ closing) =
        part.body := by
      rw [List.append_assoc, List.takeWhile_append_of_pos]
      · simp
      · intro line inBody
        simpa using (plain line inBody).1
    rw [body]
    rfl
  · rfl

theorem blocks_sections {decorator : String} (known : decorator ∈ decorators)
    {sections : List Section} (plain : ∀ part ∈ sections, ∀ line ∈ part.body, Plain line)
    (after : List String) :
    blocks decorator (sections.flatMap Section.lines ++ after) =
      (sections.filter (fun part => part.decorator = decorator)).map Section.body ++
        blocks decorator after := by
  induction sections with
  | nil => rfl
  | cons part rest ih =>
      have others := ih (fun other member => plain other (List.mem_cons_of_mem _ member))
      rw [List.flatMap_cons, List.append_assoc,
        blocks_section known (plain part List.mem_cons_self), others, List.filter_cons]
      by_cases same : part.decorator = decorator
      · simp [same]
      · simp [same]

def agentSection (verbose : Bool) (identifier : String) (tools : List String) : Section where
  decorator := agentKind.decorator
  body :=
    [indented 1 ("def " ++ identifier ++ "(self) -> Agent:"),
      indented 2 "return Agent(",
      indented 3 ("config=self.agents_config[" ++ Literal.ofText identifier ++ "],"),
      indented 3 ("tools=[" ++ Text.joinWith ", " (tools.map (fun tool => tool ++ "()")) ++ "],"),
      verboseLine verbose]

def taskSection (identifier : String) (context : List String) : Section where
  decorator := taskKind.decorator
  body :=
    [indented 1 ("def " ++ identifier ++ "(self) -> Task:"),
      indented 2 "return Task(",
      indented 3 ("config=self.tasks_config[" ++ Literal.ofText identifier ++ "],"),
      indented 3 ("output_file=" ++ Literal.ofText (identifier ++ ".md") ++ ",")] ++
    (if context.isEmpty then [] else [indented 3 ("context=[" ++ calls context ++ "],")])

def crewSection (verbose : Bool) (agents tasks : List String) : Section where
  decorator := crewDecorator
  body :=
    [indented 1 "def crew(self) -> Crew:",
      indented 2 "return Crew(",
      indented 3 ("agents=[" ++ calls agents ++ "],"),
      indented 3 ("tasks=[" ++ calls tasks ++ "],"),
      indented 3 "process=Process.sequential,",
      verboseLine verbose]

theorem agentSection_lines (verbose : Bool) (identifier : String) (tools : List String) :
    (agentSection verbose identifier tools).lines = agentLines verbose identifier tools := by
  simp +decide [agentSection, Section.lines, agentLines, agentKind, closing]

theorem taskSection_lines (identifier : String) (context : List String) :
    (taskSection identifier context).lines = taskLines identifier context := by
  simp +decide [taskSection, Section.lines, taskLines, taskKind, closing]

theorem crewSection_lines (verbose : Bool) (agents tasks : List String) :
    (crewSection verbose agents tasks).lines ++ [""] = crewLines verbose agents tasks := by
  simp +decide [crewSection, Section.lines, crewLines, crewDecorator, closing]

theorem plain_agentSection (verbose : Bool) (identifier : String) (tools : List String) :
    ∀ line ∈ (agentSection verbose identifier tools).body, Plain line := by
  simp [agentSection, verboseLine, plain_indented]

theorem plain_taskSection (identifier : String) (context : List String) :
    ∀ line ∈ (taskSection identifier context).body, Plain line := by
  unfold taskSection
  split <;> simp [plain_indented]

theorem plain_crewSection (verbose : Bool) (agents tasks : List String) :
    ∀ line ∈ (crewSection verbose agents tasks).body, Plain line := by
  simp [crewSection, verboseLine, plain_indented]

/-! ### Factories -/

theorem field?_agentName (verbose : Bool) (identifier : String) (tools : List String) :
    field? "    def " "(self) -> Agent:" (agentSection verbose identifier tools).body =
      some identifier.toList := by
  refine field?_behind [] ?_ ?_ _ <;> simp [List.replicate]

theorem read?_agentSection (verbose : Bool) (identifier : String) (tools : List String) :
    Factory.read? agentKind (agentSection verbose identifier tools).body =
      some ⟨identifier, identifier, none, []⟩ := by
  have name := field?_agentName verbose identifier tools
  have key : field? "            config=self.agents_config[" "],"
      (agentSection verbose identifier tools).body =
        some (Literal.ofText identifier).toList := by
    refine field?_behind [_, _] ?_ ?_ _ <;> simp [List.isPrefixOf?, List.replicate]
  have output : field? "            output_file=" ","
      (agentSection verbose identifier tools).body = none := by
    apply field?_missing
    simp [agentSection, verboseLine, List.isPrefixOf?, List.replicate]
  have context : field? "            context=[" "],"
      (agentSection verbose identifier tools).body = none := by
    apply field?_missing
    simp [agentSection, verboseLine, List.isPrefixOf?, List.replicate]
  have nameTrail : "(self) -> " ++ agentKind.returns ++ ":" = "(self) -> Agent:" := by decide
  have keyLead : "            config=self." ++ agentKind.table ++ "[" =
      "            config=self.agents_config[" := by decide
  rw [Factory.read?, nameTrail, keyLead, name, key, output, context]
  simp [literal?_ofText]

theorem read?_taskSection (identifier : String) {context : List String}
    (unbroken : ∀ name ∈ context, Identifiers.Unbroken name) :
    Factory.read? taskKind (taskSection identifier context).body =
      some ⟨identifier, identifier, some (identifier ++ ".md"), context⟩ := by
  have name : field? "    def " "(self) -> Task:" (taskSection identifier context).body =
      some identifier.toList := by
    refine field?_behind [] ?_ ?_ _ <;> simp [List.replicate]
  have key : field? "            config=self.tasks_config[" "],"
      (taskSection identifier context).body = some (Literal.ofText identifier).toList := by
    refine field?_behind [_, _] ?_ ?_ _ <;> simp [List.isPrefixOf?, List.replicate]
  have output : field? "            output_file=" "," (taskSection identifier context).body =
      some (Literal.ofText (identifier ++ ".md")).toList := by
    refine field?_behind [_, _, _] ?_ ?_ _ <;> simp [List.isPrefixOf?, List.replicate]
  have nameTrail : "(self) -> " ++ taskKind.returns ++ ":" = "(self) -> Task:" := by decide
  have keyLead : "            config=self." ++ taskKind.table ++ "[" =
      "            config=self.tasks_config[" := by decide
  rw [Factory.read?, nameTrail, keyLead, name, key, output]
  cases context with
  | nil =>
      have none : field? "            context=[" "]," (taskSection identifier []).body = none := by
        apply field?_missing
        simp [taskSection, List.isPrefixOf?, List.replicate]
      rw [none]
      simp [literal?_ofText]
  | cons first rest =>
      have listed : field? "            context=[" "],"
          (taskSection identifier (first :: rest)).body =
            some (calls (first :: rest)).toList := by
        refine field?_behind [_, _, _, _] ?_ ?_ [] <;> simp [List.isPrefixOf?, List.replicate]
      rw [listed]
      simp [literal?_ofText, calls?_calls unbroken]

theorem read?_crewSection (verbose : Bool) {agents tasks : List String}
    (unbrokenAgents : ∀ name ∈ agents, Identifiers.Unbroken name)
    (unbrokenTasks : ∀ name ∈ tasks, Identifiers.Unbroken name) :
    Crew.read? (crewSection verbose agents tasks).body = some { agents, tasks } := by
  have calledAgents : field? "            agents=[" "],"
      (crewSection verbose agents tasks).body = some (calls agents).toList := by
    refine field?_behind [_, _] ?_ ?_ _ <;> simp [List.isPrefixOf?, List.replicate]
  have calledTasks : field? "            tasks=[" "],"
      (crewSection verbose agents tasks).body = some (calls tasks).toList := by
    refine field?_behind [_, _, _] ?_ ?_ _ <;> simp [List.isPrefixOf?, List.replicate]
  rw [Crew.read?, calledAgents, calledTasks]
  simp [calls?_calls unbrokenAgents, calls?_calls unbrokenTasks]

/-! ### The module -/

theorem plain_importLines (tools : List String) : ∀ line ∈ importLines tools, Plain line := by
  have imported : Plain ("from crewai_tools import " ++ Text.joinWith ", " tools) := by
    apply plain_of_start
    simp
  unfold importLines
  split <;> simp +decide [imported]

theorem plain_classLines (settings : CompileSettings) :
    ∀ line ∈ classLines settings, Plain line := by
  have className : Plain ("class " ++ Text.sanitize settings.crewName ++ ":") := by
    apply plain_of_start
    simp
  simp +decide [classLines, className, plain_indented]

variable (graph : Graph) (settings : CompileSettings)

def agentRecords : List (Node × AgentData) :=
  graph.agents.filterMap (fun node => node.agent?.map (fun data => (node, data)))

theorem map_agentRecords {α : Type} (f : Node → α) :
    (agentRecords graph).map (fun record => f record.1) = graph.agents.map f := by
  apply map_filterMap_eq
  intro node member
  obtain ⟨data, found⟩ := Node.exists_agent (Graph.mem_agents_iff.mp member).2
  rw [found]
  rfl

def agentSections : List Section :=
  (agentRecords graph).map (fun (node, data) =>
    agentSection settings.verbose ((Identifiers.resolve graph).of node) (toolIdentifiers data))

def taskSections : List Section :=
  let identifiers := Identifiers.resolve graph
  (sequencedTasks graph).map (fun node =>
    taskSection (identifiers.of node) ((graph.predecessors node.id).map identifiers.of))

def sections : List Section :=
  let identifiers := Identifiers.resolve graph
  agentSections graph settings ++ taskSections graph ++
    [crewSection settings.verbose (graph.agents.map identifiers.of)
      ((sequencedTasks graph).map identifiers.of)]

theorem lines_eq_sections :
    lines graph settings = importLines (importedTools graph) ++ classLines settings ++
      ((sections graph settings).flatMap Section.lines ++ [""]) := by
  have names := map_agentRecords graph (Identifiers.resolve graph).of
  rw [agentRecords] at names
  simp [lines, sections, agentSections, taskSections, agentRecords, ← names, List.flatMap_map,
    agentSection_lines, taskSection_lines, ← crewSection_lines]

theorem plain_sections :
    ∀ part ∈ sections graph settings, ∀ line ∈ part.body, Plain line := by
  intro part member
  simp only [sections, List.mem_append, List.mem_singleton] at member
  rcases member with (isAgent | isTask) | isCrew
  · obtain ⟨record, _, same⟩ := List.mem_map.mp isAgent
    exact same ▸ plain_agentSection _ _ _
  · obtain ⟨node, _, same⟩ := List.mem_map.mp isTask
    exact same ▸ plain_taskSection _ _
  · exact isCrew ▸ plain_crewSection _ _ _

theorem blocks_lines {decorator : String} (known : decorator ∈ decorators) :
    blocks decorator (lines graph settings) =
      ((sections graph settings).filter (fun part => part.decorator = decorator)).map
        Section.body := by
  have header : ∀ line ∈ importLines (importedTools graph) ++ classLines settings,
      line ≠ decorator := by
    intro line member same
    rcases List.mem_append.mp member with isImport | isClass
    · exact (plain_importLines _ line isImport).2 (same ▸ known)
    · exact (plain_classLines settings line isClass).2 (same ▸ known)
  have last : blocks decorator [""] = [] := by
    rw [← List.append_nil [""], blocks_plain]
    · rfl
    · intro line member same
      rw [← same, List.mem_singleton.mp member] at known
      exact absurd known (by decide)
  rw [lines_eq_sections, blocks_plain header,
    blocks_sections known (plain_sections graph settings), last, List.append_nil]

theorem blocks_agents :
    blocks agentKind.decorator (lines graph settings) =
      (agentSections graph settings).map Section.body := by
  have task : ¬ taskKind.decorator = agentKind.decorator := by decide
  have crew : ¬ crewDecorator = agentKind.decorator := by decide
  rw [blocks_lines graph settings (by decide)]
  simp [sections, agentSections, taskSections, agentSection, taskSection, crewSection,
    List.filter_map, Function.comp_def, task, crew]

theorem blocks_tasks :
    blocks taskKind.decorator (lines graph settings) =
      (taskSections graph).map Section.body := by
  have agent : ¬ agentKind.decorator = taskKind.decorator := by decide
  have crew : ¬ crewDecorator = taskKind.decorator := by decide
  rw [blocks_lines graph settings (by decide)]
  simp [sections, agentSections, taskSections, agentSection, taskSection, crewSection,
    List.filter_map, Function.comp_def, agent, crew]

theorem blocks_crew :
    blocks crewDecorator (lines graph settings) =
      [(crewSection settings.verbose (graph.agents.map (Identifiers.resolve graph).of)
        ((sequencedTasks graph).map (Identifiers.resolve graph).of)).body] := by
  have agent : ¬ agentKind.decorator = crewDecorator := by decide
  have task : ¬ taskKind.decorator = crewDecorator := by decide
  rw [blocks_lines graph settings (by decide)]
  simp [sections, agentSections, taskSections, agentSection, taskSection, crewSection,
    List.filter_map, Function.comp_def, agent, task]

def agentFactory (node : Node) : Factory where
  name := (Identifiers.resolve graph).of node
  key := (Identifiers.resolve graph).of node

def taskFactory (node : Node) : Factory where
  name := (Identifiers.resolve graph).of node
  key := (Identifiers.resolve graph).of node
  output := some ((Identifiers.resolve graph).of node ++ ".md")
  context := (graph.predecessors node.id).map (Identifiers.resolve graph).of

theorem unbroken_names (nodes : List Node) :
    ∀ name ∈ nodes.map (Identifiers.resolve graph).of, Identifiers.Unbroken name := by
  intro name member
  obtain ⟨node, _, same⟩ := List.mem_map.mp member
  exact same ▸ Identifiers.unbroken_of graph node

theorem read?_agentSections :
    ((agentSections graph settings).map Section.body).mapM (Factory.read? agentKind) =
      some (graph.agents.map (agentFactory graph)) := by
  rw [agentSections, List.map_map, ← map_agentRecords]
  exact mapM_map (fun _ _ => read?_agentSection _ _ _)

theorem read?_taskSections :
    ((taskSections graph).map Section.body).mapM (Factory.read? taskKind) =
      some ((sequencedTasks graph).map (taskFactory graph)) := by
  rw [taskSections, List.map_map]
  exact mapM_map (fun _ _ => read?_taskSection _ (unbroken_names graph _))

theorem map_ofList_splitOn_scaffold :
    ((graph.scaffold settings).toList.splitOn '\n').map String.ofList = lines graph settings := by
  rw [splitOn_scaffold, List.map_map]
  simp [Function.comp_def]

/-- The scaffold defines one factory for each agent, one for each task of the sequence and
one crew of them all. -/
theorem read?_scaffold :
    Module.read? (graph.scaffold settings) = some
      { agents := graph.agents.map (agentFactory graph)
        tasks := (sequencedTasks graph).map (taskFactory graph)
        crews :=
          [{ agents := graph.agents.map (Identifiers.resolve graph).of
             tasks := (sequencedTasks graph).map (Identifiers.resolve graph).of }] } := by
  have text := map_ofList_splitOn_scaffold graph settings
  have crew := read?_crewSection settings.verbose (unbroken_names graph graph.agents)
    (unbroken_names graph (sequencedTasks graph))
  rw [Module.read?]
  simp only [text, blocks_agents, blocks_tasks, blocks_crew, read?_agentSections,
    read?_taskSections, List.mapM_cons, List.mapM_nil, crew]
  rfl

end CrewCanvas.Scaffold
