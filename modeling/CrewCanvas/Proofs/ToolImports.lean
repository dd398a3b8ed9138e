/-
Tools that the scaffold imports and invokes.

The import line and the factories of the agents are read from the text.  Each factory invokes the
sanitized tools of its agent, also those that are listed twice, and the import line names each
tool that is invoked once, in the order of the first calls.  Tools that differ only in their
blanks are one tool on both sides.
-/

import CrewCanvas.Proofs.ScaffoldText

namespace CrewCanvas.Scaffold

/-! ### Reading -/

def importLead : String := "from crewai_tools import "

def imported? (line : String) : Option (List String) :=
  (between? importLead "" line.toList).map (fun listed => (parts listed).map String.ofList)

def invoked? (part : List Char) : Option String := (between? "" "()" part).map String.ofList

structure ToolUse where
  factory : String
  tools : List String
  deriving DecidableEq

def ToolUse.read? (block : List String) : Option ToolUse := do
  let factory ← field? "    def " "(self) -> Agent:" block
  let tools ← (field? "            tools=[" "]," block).bind (items? invoked?)
  return { factory := String.ofList factory, tools }

structure ToolList where
  imports : List (List String)
  uses : List ToolUse
  deriving DecidableEq

def ToolList.invoked (list : ToolList) : List String := list.uses.flatMap ToolUse.tools

def ToolList.read? (text : String) : Option ToolList := do
  let lines := (text.toList.splitOn '\n').map String.ofList
  let uses ← (blocks agentKind.decorator lines).mapM ToolUse.read?
  return { imports := lines.filterMap imported?, uses }

/-! ### First uses -/

/-- The names are those of the uses, each of them once and where it is used first. -/
structure FirstUses (names uses : List String) : Prop where
  once : names.Nodup
  mem_iff : ∀ name, name ∈ names ↔ name ∈ uses
  ordered : names.Pairwise (fun name later => uses.idxOf name < uses.idxOf later)

theorem distinct_ordered (seen texts : List String) :
    (distinct seen texts).Pairwise (fun text later => texts.idxOf text < texts.idxOf later) := by
  induction texts generalizing seen with
  | nil => exact List.Pairwise.nil
  | cons first rest ih =>
      -- A text that differs from the first one comes one place later with it than without it.
      have shifted {known : List String} (among : first ∈ known) :
          (distinct known rest).Pairwise
            (fun text later => (first :: rest).idxOf text < (first :: rest).idxOf later) := by
        have other {text : String} (member : text ∈ distinct known rest) : first ≠ text := by
          intro same
          exact (mem_distinct_iff.mp member).2 (same ▸ among)
        refine (ih known).imp_of_mem ?_
        intro text later isText isLater before
        rw [List.idxOf_cons_ne rest (other isText), List.idxOf_cons_ne rest (other isLater)]
        exact Nat.succ_lt_succ before
      rw [distinct]
      split
      · rename_i known
        exact shifted known
      · refine List.pairwise_cons.mpr ⟨?_, shifted List.mem_cons_self⟩
        intro later isLater
        have other : first ≠ later := by
          intro same
          exact (mem_distinct_iff.mp isLater).2 (same ▸ List.mem_cons_self)
        rw [List.idxOf_cons_self, List.idxOf_cons_ne rest other]
        exact Nat.succ_pos _

theorem firstUses_distinct (texts : List String) : FirstUses (distinct [] texts) texts where
  once := by
    refine (distinct_ordered [] texts).imp ?_
    intro name later before same
    rw [same] at before
    exact Nat.lt_irrefl _ before
  mem_iff := by
    intro name
    rw [mem_distinct_iff, and_iff_left List.not_mem_nil]
  ordered := distinct_ordered [] texts

/-! ### The import line -/

theorem imported?_other {line : String} (other : line.toList.head? ≠ some 'f') :
    imported? line = none := by
  have lead : importLead.toList.isPrefixOf? line.toList = none := by
    cases chars : line.toList with
    | nil => rfl
    | cons c rest =>
        rw [chars] at other
        have differs : ('f' == c) = false := by
          rw [beq_eq_false_iff_ne]
          intro same
          exact other (same ▸ rfl)
        simp [importLead, List.isPrefixOf?, differs]
  rw [imported?, between?, lead]
  rfl

theorem imported?_indented (level : Nat) (line : String) :
    imported? (indented (level + 1) line) = none := by
  apply imported?_other
  rw [toList_indented, Nat.mul_succ, List.replicate_succ]
  simp

theorem imported?_joinWith {tools : List String} (some : tools ≠ [])
    (unbroken : ∀ tool ∈ tools, Identifiers.Unbroken tool) :
    imported? (importLead ++ Text.joinWith ", " tools) = .some tools := by
  have found : between? importLead "" (importLead ++ Text.joinWith ", " tools).toList =
      .some ([',', ' '].intercalate (tools.map String.toList)) := by
    rw [between?_eq_some_iff, String.toList_append, Text.joinWith, String.toList_intercalate]
    simp
  have spaceless : ∀ text ∈ tools.map String.toList, ' ' ∉ text := by
    intro text member
    obtain ⟨tool, listed, rfl⟩ := List.mem_map.mp member
    exact space_notMem_of_unbroken (unbroken tool listed)
  rw [imported?, found, Option.map_some, parts_intercalate (by simpa using some) spaceless,
    List.map_map]
  simp [Function.comp_def]

theorem filterMap_imported?_importLines {tools : List String}
    (unbroken : ∀ tool ∈ tools, Identifiers.Unbroken tool) :
    (importLines tools).filterMap imported? = if tools.isEmpty then [] else [tools] := by
  have framework : imported? "from crewai import Agent, Crew, Process, Task" = none := by decide
  have project : imported? "from crewai.project import CrewBase, agent, crew, task" = none := by
    decide
  have blank : imported? "" = none := by decide
  cases tools with
  | nil => simp [importLines, framework, project, blank]
  | cons tool rest =>
      have line := imported?_joinWith (List.cons_ne_nil tool rest) unbroken
      rw [importLead] at line
      simp [importLines, framework, project, blank, line]

theorem imported?_classLines (settings : CompileSettings) :
    ∀ line ∈ classLines settings, imported? line = none := by
  have named : imported? ("class " ++ Text.sanitize settings.crewName ++ ":") = none := by
    apply imported?_other
    simp
  simp +decide [classLines, named, imported?_indented]

theorem imported?_agentSection (verbose : Bool) (identifier : String) (tools : List String) :
    ∀ line ∈ (agentSection verbose identifier tools).lines, imported? line = none := by
  rw [agentSection_lines]
  simp +decide [agentLines, verboseLine, imported?_indented]

theorem imported?_taskSection (identifier : String) (context : List String) :
    ∀ line ∈ (taskSection identifier context).lines, imported? line = none := by
  rw [taskSection_lines, taskLines]
  split <;> simp +decide [imported?_indented]

theorem imported?_crewSection (verbose : Bool) (agents tasks : List String) :
    ∀ line ∈ (crewSection verbose agents tasks).lines, imported? line = none := by
  simp +decide [crewSection, Section.lines, crewDecorator, closing, verboseLine,
    imported?_indented]

variable (graph : Graph) (settings : CompileSettings)

theorem imported?_sections :
    ∀ part ∈ sections graph settings, ∀ line ∈ part.lines, imported? line = none := by
  intro part member
  simp only [sections, List.mem_append, List.mem_singleton] at member
  rcases member with (isAgent | isTask) | isCrew
  · obtain ⟨record, _, same⟩ := List.mem_map.mp isAgent
    exact same ▸ imported?_agentSection _ _ _
  · obtain ⟨node, _, same⟩ := List.mem_map.mp isTask
    exact same ▸ imported?_taskSection _ _
  · exact isCrew ▸ imported?_crewSection _ _ _

/-- No line but the one of the tools is read as an import of tools. -/
theorem imports_lines : (lines graph settings).filterMap imported? =
    if (importedTools graph).isEmpty then [] else [importedTools graph] := by
  have others : ∀ line ∈ (sections graph settings).flatMap Section.lines,
      imported? line = none := by
    intro line member
    obtain ⟨part, isPart, inside⟩ := List.mem_flatMap.mp member
    exact imported?_sections graph settings part isPart line inside
  have last : [""].filterMap imported? = [] := by decide
  rw [lines_eq_sections, List.filterMap_append, List.filterMap_append, List.filterMap_append,
    filterMap_imported?_importLines (unbroken_importedTools graph),
    List.filterMap_eq_nil_iff.mpr (imported?_classLines settings),
    List.filterMap_eq_nil_iff.mpr others, last]
  simp

/-! ### Factories -/

theorem invoked?_call (tool : String) : invoked? (tool ++ "()").toList = some tool := by
  have found : between? "" "()" (tool ++ "()").toList = some tool.toList := by
    rw [between?_eq_some_iff, String.toList_append]
    rfl
  rw [invoked?, found, Option.map_some, String.ofList_toList]

theorem ToolUse.read?_agentSection (verbose : Bool) (identifier : String) {tools : List String}
    (unbroken : ∀ tool ∈ tools, Identifiers.Unbroken tool) :
    ToolUse.read? (agentSection verbose identifier tools).body = some ⟨identifier, tools⟩ := by
  have listed : field? "            tools=[" "]," (agentSection verbose identifier tools).body =
      some (Text.joinWith ", " (tools.map (fun tool => tool ++ "()"))).toList := by
    refine field?_behind [_, _, _] ?_ ?_ _ <;> simp [List.isPrefixOf?, List.replicate]
  have shown : ∀ tool ∈ tools, (tool ++ "()").toList ≠ [] ∧ ' ' ∉ (tool ++ "()").toList := by
    intro tool member
    have inName := space_notMem_of_unbroken (unbroken tool member)
    simp [inName]
  have invoked := items?_joinWith shown (fun tool _ => invoked?_call tool)
  rw [ToolUse.read?, field?_agentName, listed]
  simp [invoked]

def toolUses : List ToolUse :=
  (agentRecords graph).map (fun (node, data) =>
    ⟨(Identifiers.resolve graph).of node, toolIdentifiers data⟩)

theorem read?_toolUses :
    (blocks agentKind.decorator (lines graph settings)).mapM ToolUse.read? =
      some (toolUses graph) := by
  rw [blocks_agents, agentSections, List.map_map]
  exact mapM_map (fun _ _ => ToolUse.read?_agentSection _ _ unbroken_toolIdentifiers)

def InvokesTools (graph : Graph) (agent : Node) (use : ToolUse) : Prop :=
  use.factory = (Identifiers.resolve graph).of agent ∧
    ∃ data, agent.agent? = some data ∧ use.tools = data.toolNames.map Text.sanitize

theorem toolUses_forall₂ : List.Forall₂ (InvokesTools graph) graph.agents (toolUses graph) := by
  rw [toolUses, agentRecords, List.map_filterMap]
  apply forall₂_filterMap
  intro node member
  obtain ⟨data, found⟩ := Node.exists_agent (Graph.mem_agents_iff.mp member).2
  refine ⟨⟨(Identifiers.resolve graph).of node, toolIdentifiers data⟩, ?_, rfl, data, found, rfl⟩
  rw [found]
  rfl

theorem importedTools_eq :
    importedTools graph = distinct [] ((toolUses graph).flatMap ToolUse.tools) := by
  have records : graph.agents.filterMap Node.agent? = (agentRecords graph).map Prod.snd := by
    rw [agentRecords, List.map_filterMap]
    apply List.filterMap_congr
    intro node _
    cases node.agent? <;> rfl
  rw [importedTools, records, toolUses, List.flatMap_map, List.flatMap_map]

/-! ### The module -/

structure ImportsInvoked (graph : Graph) (list : ToolList) : Prop where
  factories : List.Forall₂ (InvokesTools graph) graph.agents list.uses
  absent_iff : list.imports = [] ↔ ∀ use ∈ list.uses, use.tools = []
  atMostOne : list.imports.length ≤ 1
  names : ∀ names ∈ list.imports, FirstUses names list.invoked

theorem importsInvoked_scaffold :
    ∃ list, ToolList.read? (graph.scaffold settings) = some list ∧ ImportsInvoked graph list := by
  refine ⟨⟨if (importedTools graph).isEmpty then [] else [importedTools graph], toolUses graph⟩,
    ?_, ?_⟩
  · rw [ToolList.read?]
    simp only [map_ofList_splitOn_scaffold, read?_toolUses, imports_lines]
    rfl
  rw [importedTools_eq]
  constructor
  case factories => exact toolUses_forall₂ graph
  case absent_iff =>
    have idle : (toolUses graph).flatMap ToolUse.tools = [] ↔
        ∀ use ∈ toolUses graph, use.tools = [] := List.flatMap_eq_nil_iff
    rw [isEmpty_distinct, ← idle]
    cases (toolUses graph).flatMap ToolUse.tools <;> simp
  case atMostOne =>
    dsimp only
    split <;> simp
  case names =>
    intro names member
    dsimp only at member
    split at member
    · cases member
    · rw [List.mem_singleton.mp member]
      exact firstUses_distinct _

/-- Two tools that are listed more than once, with blanks that differ. -/
example : importedTools
    { nodes :=
        [{ id := "v", data := .agent { tools := "web search, read,read" } },
          { id := "w", data := .agent { tools := "read,web\tsearch" } }] } =
      ["web_search", "read"] := by decide

end CrewCanvas.Scaffold
