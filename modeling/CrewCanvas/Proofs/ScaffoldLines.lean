/-
Lines of the scaffold.

Whatever names, tools and paths hold, they are sanitized or quoted before they are written,
so every line that is built is one line of the text.
-/

import CrewCanvas.Artifact.Scaffold
import CrewCanvas.Proofs.Lists
import CrewCanvas.Proofs.LiteralText
import CrewCanvas.Proofs.Naming

namespace CrewCanvas

def OneLine (text : String) : Prop := ∀ c ∈ text.toList, c ≠ '\n' ∧ c ≠ '\r'

instance (text : String) : Decidable (OneLine text) :=
  List.decidableBAll _ text.toList

@[simp] theorem oneLine_append {text other : String} :
    OneLine (text ++ other) ↔ OneLine text ∧ OneLine other := by
  simp only [OneLine, String.toList_append, List.mem_append, or_imp, forall_and]
  exact and_and_and_comm

theorem oneLine_of_forall {text : String} {p : Char → Bool}
    (each : ∀ c ∈ text.toList, p c = false) (lineBreak : p '\n' = true) (carriage : p '\r' = true) :
    OneLine text := by
  intro c member
  have fails := each c member
  constructor
  · intro same
    rw [same, lineBreak] at fails
    cases fails
  · intro same
    rw [same, carriage] at fails
    cases fails

theorem oneLine_of_unbroken {name : String} (unbroken : Identifiers.Unbroken name) :
    OneLine name :=
  oneLine_of_forall unbroken rfl rfl

@[simp] theorem oneLine_sanitize (name : String) : OneLine (Text.sanitize name) :=
  oneLine_of_unbroken (Identifiers.unbroken_sanitize name)

@[simp] theorem oneLine_literal (text : String) : OneLine (Literal.ofText text) := by
  have shown : ∀ c ∈ (Literal.ofText text).toList, Literal.isControl c = false := by
    intro c member
    rw [Literal.toList_ofText] at member
    exact Literal.isControl_of_mem_write member
  exact oneLine_of_forall shown rfl rfl

theorem oneLine_joinWith {separator : String} (plain : OneLine separator) {texts : List String}
    (each : ∀ text ∈ texts, OneLine text) : OneLine (Text.joinWith separator texts) := by
  intro c member
  rw [Text.joinWith, String.toList_intercalate] at member
  rcases mem_intercalate member with inSeparator | ⟨chars, inTexts, inText⟩
  · exact plain c inSeparator
  · obtain ⟨text, present, same⟩ := List.mem_map.mp inTexts
    subst same
    exact each text present c inText

namespace Scaffold

@[simp] theorem oneLine_indented {level : Nat} {line : String} :
    OneLine (indented level line) ↔ OneLine line := by
  rw [indented, oneLine_append, and_iff_right]
  intro c member
  rw [String.toList_ofList] at member
  rw [List.eq_of_mem_replicate member]
  decide

theorem oneLine_calls {identifiers : List String}
    (each : ∀ identifier ∈ identifiers, OneLine identifier) : OneLine (calls identifiers) := by
  apply oneLine_joinWith (by decide)
  intro text member
  obtain ⟨identifier, present, same⟩ := List.mem_map.mp member
  subst same
  have lead : OneLine "self." := by decide
  have trail : OneLine "()" := by decide
  simp [lead, trail, each identifier present]

@[simp] theorem oneLine_verboseLine (verbose : Bool) : OneLine (verboseLine verbose) := by
  cases verbose <;> decide

theorem mem_distinct_iff {seen texts : List String} {text : String} :
    text ∈ distinct seen texts ↔ text ∈ texts ∧ text ∉ seen := by
  induction texts generalizing seen with
  | nil => simp [distinct]
  | cons first rest ih =>
      rw [distinct]
      split
      · rename_i known
        rw [ih, List.mem_cons]
        refine and_congr_left ?_
        intro unseen
        have other : text ≠ first := fun same => unseen (same ▸ known)
        exact (or_iff_right other).symm
      · rename_i fresh
        by_cases isFirst : text = first
        · simp [isFirst, fresh]
        · simp [isFirst, ih]

theorem isEmpty_distinct (texts : List String) : (distinct [] texts).isEmpty = texts.isEmpty := by
  cases texts with
  | nil => rfl
  | cons text rest => rw [distinct, if_neg List.not_mem_nil, List.isEmpty_cons, List.isEmpty_cons]

theorem unbroken_toolIdentifiers {data : AgentData} :
    ∀ tool ∈ toolIdentifiers data, Identifiers.Unbroken tool := by
  intro tool member
  obtain ⟨name, _, rfl⟩ := List.mem_map.mp member
  exact Identifiers.unbroken_sanitize name

theorem unbroken_importedTools (graph : Graph) :
    ∀ tool ∈ importedTools graph, Identifiers.Unbroken tool := by
  intro tool imported
  obtain ⟨data, _, used⟩ := List.mem_flatMap.mp (mem_distinct_iff.mp imported).1
  exact unbroken_toolIdentifiers tool used

/-! ### The parts of the scaffold -/

theorem oneLine_importLines {tools : List String} (each : ∀ tool ∈ tools, OneLine tool) :
    ∀ line ∈ importLines tools, OneLine line := by
  have imported : OneLine (Text.joinWith ", " tools) := oneLine_joinWith (by decide) each
  unfold importLines
  split <;> simp +decide [imported]

theorem oneLine_classLines (settings : CompileSettings) :
    ∀ line ∈ classLines settings, OneLine line := by
  simp +decide [classLines]

theorem oneLine_agentLines (verbose : Bool) {identifier : String} (plain : OneLine identifier)
    {tools : List String} (each : ∀ tool ∈ tools, OneLine tool) :
    ∀ line ∈ agentLines verbose identifier tools, OneLine line := by
  have used : OneLine (Text.joinWith ", " (tools.map (fun tool => tool ++ "()"))) := by
    apply oneLine_joinWith (by decide)
    intro text member
    obtain ⟨tool, present, same⟩ := List.mem_map.mp member
    subst same
    exact oneLine_append.mpr ⟨each tool present, by decide⟩
  simp only [agentLines, List.forall_mem_cons, oneLine_indented, oneLine_append, oneLine_literal,
    oneLine_verboseLine, plain, used, true_and, and_true]
  decide

theorem oneLine_taskLines {identifier : String} (plain : OneLine identifier)
    {context : List String} (each : ∀ name ∈ context, OneLine name) :
    ∀ line ∈ taskLines identifier context, OneLine line := by
  have called := oneLine_calls each
  unfold taskLines
  split
  · simp only [List.cons_append, List.nil_append, List.forall_mem_cons, oneLine_indented,
      oneLine_append, oneLine_literal, plain, and_true]
    decide
  · simp only [List.cons_append, List.nil_append, List.forall_mem_cons, oneLine_indented,
      oneLine_append, oneLine_literal, plain, called, and_true]
    decide

theorem oneLine_crewLines (verbose : Bool) {agents tasks : List String}
    (eachAgent : ∀ name ∈ agents, OneLine name) (eachTask : ∀ name ∈ tasks, OneLine name) :
    ∀ line ∈ crewLines verbose agents tasks, OneLine line := by
  have calledAgents := oneLine_calls eachAgent
  have calledTasks := oneLine_calls eachTask
  simp only [crewLines, List.forall_mem_cons, oneLine_indented, oneLine_append,
    oneLine_verboseLine, calledAgents, calledTasks, true_and, and_true]
  decide

theorem oneLine_of_node (graph : Graph) (node : Node) :
    OneLine ((Identifiers.resolve graph).of node) :=
  oneLine_of_unbroken (Identifiers.unbroken_of graph node)

/-- Every line that is built is one line of text. -/
theorem oneLine_lines (graph : Graph) (settings : CompileSettings) :
    ∀ line ∈ lines graph settings, OneLine line := by
  have identifier := oneLine_of_node graph
  have named {nodes : List Node} {name : String}
      (member : name ∈ nodes.map (Identifiers.resolve graph).of) : OneLine name := by
    obtain ⟨node, _, same⟩ := List.mem_map.mp member
    exact same ▸ identifier node
  intro line member
  simp only [lines, List.mem_append] at member
  rcases member with (((isImport | isClass) | inAgent) | inTask) | inCrew
  · refine oneLine_importLines ?_ line isImport
    intro tool imported
    exact oneLine_of_unbroken (unbroken_importedTools graph tool imported)
  · exact oneLine_classLines settings line isClass
  · obtain ⟨⟨node, data⟩, _, written⟩ := List.mem_flatMap.mp inAgent
    exact oneLine_agentLines settings.verbose (identifier node)
      (fun tool used => oneLine_of_unbroken (unbroken_toolIdentifiers tool used)) line written
  · obtain ⟨node, _, written⟩ := List.mem_flatMap.mp inTask
    exact oneLine_taskLines (identifier node) (fun _ => named) line written
  · refine oneLine_crewLines settings.verbose ?_ (fun _ => named) line inCrew
    intro name listed
    obtain ⟨⟨node, data⟩, _, same⟩ := List.mem_map.mp listed
    exact same ▸ identifier node

theorem notMem_lines {c : Char} (ends : c = '\n' ∨ c = '\r') (graph : Graph)
    (settings : CompileSettings) :
    ∀ chars ∈ (lines graph settings).map String.toList, c ∉ chars := by
  intro chars member inside
  obtain ⟨line, built, same⟩ := List.mem_map.mp member
  subst same
  obtain ⟨notBreak, notReturn⟩ := oneLine_lines graph settings line built c inside
  exact ends.elim notBreak notReturn

/-- The lines of the text are the lines that were built. -/
theorem splitOn_scaffold (graph : Graph) (settings : CompileSettings) :
    (graph.scaffold settings).toList.splitOn '\n' = (lines graph settings).map String.toList := by
  rw [Graph.scaffold, Text.joinWith, String.toList_intercalate]
  apply List.splitOn_intercalate '\n'
  · exact notMem_lines (Or.inl rfl) graph settings
  · simp [lines, crewLines]

end Scaffold

end CrewCanvas
