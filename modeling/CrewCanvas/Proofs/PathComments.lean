/-
Comments of the declarative artifact.

Each of its two documents stands behind a comment with the path of a file.  A path is written as
it is.  So the artifact has its lines, a comment in front of each document and `---` between
them, exactly if no path breaks its line.  Two such artifacts of a graph differ in the comments
alone.  What breaks a line is what YAML takes for a line break.
-/

import CrewCanvas.Artifact.Declarative

namespace CrewCanvas

namespace Yaml

/-! ### Lines -/

def lines : List Char → List (List Char)
  | [] => []
  | c :: rest =>
      if isBreak c then [] :: lines rest
      else
        match lines rest with
        | [] => [[c]]
        | line :: others => (c :: line) :: others

def EndsLine (text : List Char) : Prop := text.getLast?.any isBreak = true

theorem endsLine_append (text : List Char) {rest : List Char} (ended : EndsLine rest) :
    EndsLine (text ++ rest) := by
  unfold EndsLine at ended ⊢
  cases last : rest.getLast? with
  | none => simp [last] at ended
  | some c => rwa [List.getLast?_append, last, Option.some_or, ← last]

theorem endsLine_cons_iff {c d : Char} {rest : List Char} :
    EndsLine (c :: d :: rest) ↔ EndsLine (d :: rest) := by
  rw [EndsLine, EndsLine, List.getLast?_cons_cons]

/-- A text that ends its last line is a break, or such a text behind one more character. -/
@[elab_as_elim]
theorem EndsLine.induct {motive : (text : List Char) → EndsLine text → Prop}
    (last : ∀ c (breaks : isBreak c = true), motive [c] breaks)
    (more : ∀ c text (ended : EndsLine text), motive text ended →
      motive (c :: text) (endsLine_append [c] ended))
    (text : List Char) (ended : EndsLine text) : motive text ended := by
  induction text with
  | nil => exact absurd ended (by simp [EndsLine])
  | cons c text ih =>
      cases text with
      | nil => exact last c (by simpa [EndsLine] using ended)
      | cons d text =>
          have later := endsLine_cons_iff.mp ended
          exact more c (d :: text) later (ih later)

theorem EndsLine.lines_ne_nil {text : List Char} (ended : EndsLine text) : lines text ≠ [] := by
  cases text with
  | nil => exact absurd ended (by simp [EndsLine])
  | cons c rest =>
      rw [lines]
      split
      · exact List.cons_ne_nil _ _
      · split <;> exact List.cons_ne_nil _ _

theorem lines_append {text : List Char} (ended : EndsLine text) (rest : List Char) :
    lines (text ++ rest) = lines text ++ lines rest := by
  induction text, ended using EndsLine.induct with
  | last c breaks => simp [lines, breaks]
  | more c text ended ih =>
      rw [List.cons_append, lines, lines, ih]
      split
      · rfl
      · cases split : lines text with
        | nil => exact absurd split ended.lines_ne_nil
        | cons line others => rfl

/-- A line stands in front of the break at its end. -/
theorem lines_break {line : List Char} (whole : ∀ c ∈ line, isBreak c = false) {mark : Char}
    (breaks : isBreak mark = true) (rest : List Char) :
    lines (line ++ mark :: rest) = line :: lines rest := by
  induction line with
  | nil => rw [List.nil_append, lines, if_pos breaks]
  | cons c line ih =>
      rw [List.forall_mem_cons] at whole
      rw [List.cons_append, lines, if_neg (by simp [whole.1]), ih whole.2]

/-- There are as many lines as breaks. -/
theorem length_lines {text : List Char} (ended : EndsLine text) :
    (lines text).length = text.countP isBreak := by
  induction text, ended using EndsLine.induct with
  | last c breaks => simp [lines, breaks]
  | more c text ended ih =>
      rw [List.countP_cons, ← ih, lines]
      split
      · rfl
      · cases split : lines text with
        | nil => exact absurd split ended.lines_ne_nil
        | cons line others => rfl

/-! ### The end of a document -/

theorem endsLine_indentLines {text : List Char} (ended : EndsLine text) (indent : Nat)
    (write : Char → List Char) (atStart : Bool) :
    EndsLine (indentLines indent write atStart text) := by
  induction text, ended using EndsLine.induct generalizing atStart with
  | last c breaks => simp [indentLines, EndsLine, breaks]
  | more c text ended ih =>
      rw [indentLines]
      split
      · exact endsLine_append [c] (ih true)
      · exact endsLine_append _ (endsLine_append _ (ih false))

theorem endsLine_flatMap {α : Type} {write : α → List Char} {items : List α}
    (each : ∀ item ∈ items, EndsLine (write item)) (some : items ≠ []) :
    EndsLine (items.flatMap write) := by
  obtain ⟨before, last, same⟩ := List.eq_nil_or_concat items |>.resolve_left some
  rw [List.concat_eq_append] at same
  subst same
  rw [List.flatMap_append, List.flatMap_singleton]
  exact endsLine_append _ (each last (List.mem_append_right _ (List.mem_singleton_self last)))

theorem endsLine_writeScalar (indent : Nat) (style : Style) (text : List Char) :
    EndsLine (writeScalar indent style text) := by
  have newline : EndsLine ['\n'] := rfl
  cases style with
  | plain => exact endsLine_append text newline
  | singleQuoted => exact endsLine_append _ newline
  | doubleQuoted => exact endsLine_append ('"' :: text.flatMap escape) rfl
  | literal =>
      apply endsLine_append
      split
      · rename_i ended
        rw [List.append_nil]
        exact endsLine_append ['\n'] (endsLine_indentLines ended indent _ true)
      · exact endsLine_append ('\n' :: indentLines indent _ true text) newline

theorem endsLine_writeField (field : String × String) : EndsLine (writeField field) :=
  endsLine_append field.1.toList (endsLine_append [':', ' '] (endsLine_writeScalar 4 _ _))

theorem endsLine_writeFields {fields : Fields} (filled : fields ≠ []) :
    EndsLine (writeFields fields) :=
  endsLine_flatMap (fun field _ => endsLine_append _ (endsLine_writeField field)) filled

theorem endsLine_writeEntry {key : String} {fields : Fields} (filled : fields ≠ []) :
    EndsLine (writeEntry (key, fields)) := by
  have written := endsLine_writeFields filled
  rw [writeEntry]
  split
  · exact endsLine_append (writeKey key) (endsLine_append [':', '\n'] written)
  · -- The first indentation of the fields stands behind the colon already.
    obtain ⟨field, others, same⟩ := List.exists_cons_of_ne_nil filled
    subst same
    have behind : EndsLine ((writeFields (field :: others)).drop 1) :=
      endsLine_cons_iff.mp written
    exact endsLine_append ['?', ' '] (endsLine_append _ (endsLine_append [':'] behind))

namespace Document

theorem forall_mem_set {holds : Fields → Prop} {key : String} {fields : Fields}
    (given : holds fields) {document : Document} (each : ∀ entry ∈ document, holds entry.2) :
    ∀ entry ∈ document.set key fields, holds entry.2 := by
  induction document with
  | nil => simpa [Document.set] using given
  | cons entry rest ih =>
      rw [List.forall_mem_cons] at each
      rw [Document.set]
      split
      · exact List.forall_mem_cons.mpr ⟨given, each.2⟩
      · exact List.forall_mem_cons.mpr ⟨each.1, ih each.2⟩

theorem forall_mem_ofEntries (holds : Fields → Prop) {entries : List (String × Fields)}
    (each : ∀ entry ∈ entries, holds entry.2) : ∀ entry ∈ ofEntries entries, holds entry.2 := by
  suffices run : ∀ document : Document, (∀ entry ∈ document, holds entry.2) →
      ∀ entry ∈ entries.foldl (fun document entry => document.set entry.1 entry.2) document,
        holds entry.2 from
    run [] (fun _ member => absurd member List.not_mem_nil)
  induction entries with
  | nil => exact fun _ held => held
  | cons first rest ih =>
      rw [List.forall_mem_cons] at each
      exact fun document held => ih each.2 _ (forall_mem_set each.1 held)

theorem endsLine_toText {document : Document} (filled : ∀ entry ∈ document, entry.2 ≠ []) :
    EndsLine document.toText.toList := by
  rw [toText, String.toList_ofList]
  split
  · rfl
  · rename_i some
    rw [List.isEmpty_iff] at some
    exact endsLine_flatMap (fun entry member => endsLine_writeEntry (filled entry member)) some

theorem endsLine_ofEntries {entries : List (String × Fields)}
    (filled : ∀ entry ∈ entries, entry.2 ≠ []) : EndsLine (ofEntries entries).toText.toList :=
  endsLine_toText (forall_mem_ofEntries (· ≠ []) filled)

end Document

end Yaml

/-! ### The artifact -/

def CompileSettings.PathsOnOneLine (settings : CompileSettings) : Prop :=
  ∀ c ∈ settings.agentsPath.toList ++ settings.tasksPath.toList, Yaml.isBreak c = false

instance (settings : CompileSettings) : Decidable settings.PathsOnOneLine :=
  List.decidableBAll _ (settings.agentsPath.toList ++ settings.tasksPath.toList)

namespace Graph

variable (graph : Graph)

theorem endsLine_agentsDocument (identifiers : Identifiers) :
    Yaml.EndsLine (graph.agentsDocument identifiers).toText.toList := by
  apply Yaml.Document.endsLine_ofEntries
  intro entry member
  obtain ⟨node, _, written⟩ := List.mem_filterMap.mp member
  obtain ⟨data, _, same⟩ := Option.map_eq_some_iff.mp written
  exact same ▸ List.cons_ne_nil _ _

theorem endsLine_tasksDocument (identifiers : Identifiers) :
    Yaml.EndsLine (graph.tasksDocument identifiers).toText.toList := by
  apply Yaml.Document.endsLine_ofEntries
  intro entry member
  obtain ⟨node, _, written⟩ := List.mem_filterMap.mp member
  obtain ⟨data, _, same⟩ := Option.map_eq_some_iff.mp written
  exact same ▸ List.cons_ne_nil _ _

def agentsLines : List (List Char) :=
  Yaml.lines (graph.agentsDocument (Identifiers.resolve graph)).toText.toList

def tasksLines : List (List Char) :=
  Yaml.lines (graph.tasksDocument (Identifiers.resolve graph)).toText.toList

def commented (first second : List Char) : List (List Char) :=
  ('#' :: ' ' :: first) :: (graph.agentsLines ++
    ['-', '-', '-'] :: ('#' :: ' ' :: second) :: graph.tasksLines)

theorem toList_declarative (settings : CompileSettings) :
    (graph.declarative settings).toList =
      '#' :: ' ' :: settings.agentsPath.toList ++ '\n' ::
        ((graph.agentsDocument (Identifiers.resolve graph)).toText.toList ++
          (['-', '-', '-'] ++ '\n' ::
            ('#' :: ' ' :: settings.tasksPath.toList ++ '\n' ::
              (graph.tasksDocument (Identifiers.resolve graph)).toText.toList))) := by
  simp [declarative]

theorem comment_whole {path : List Char} (whole : ∀ c ∈ path, Yaml.isBreak c = false) :
    ∀ c ∈ '#' :: ' ' :: path, Yaml.isBreak c = false :=
  List.forall_mem_cons.mpr ⟨rfl, List.forall_mem_cons.mpr ⟨rfl, whole⟩⟩

theorem lines_declarative {settings : CompileSettings} (paths : settings.PathsOnOneLine) :
    Yaml.lines (graph.declarative settings).toList =
      graph.commented settings.agentsPath.toList settings.tasksPath.toList := by
  have whole := List.forall_mem_append.mp paths
  have rule : ∀ c ∈ ['-', '-', '-'], Yaml.isBreak c = false := by simp [Yaml.isBreak]
  have newline : Yaml.isBreak '\n' = true := by decide
  rw [toList_declarative, Yaml.lines_break (comment_whole whole.1) newline,
    Yaml.lines_append (graph.endsLine_agentsDocument _), Yaml.lines_break rule newline,
    Yaml.lines_break (comment_whole whole.2) newline]
  rfl

/-- Every break of a path is one more line. -/
theorem length_lines_declarative (settings : CompileSettings) :
    (Yaml.lines (graph.declarative settings).toList).length =
      graph.agentsLines.length + graph.tasksLines.length + 3 +
        (settings.agentsPath.toList ++ settings.tasksPath.toList).countP Yaml.isBreak := by
  have agents := graph.endsLine_agentsDocument (Identifiers.resolve graph)
  have tasks := graph.endsLine_tasksDocument (Identifiers.resolve graph)
  have whole : Yaml.EndsLine (graph.declarative settings).toList := by
    rw [declarative, String.toList_append]
    exact Yaml.endsLine_append _ tasks
  have marks : Yaml.isBreak '#' = false ∧ Yaml.isBreak ' ' = false ∧ Yaml.isBreak '-' = false ∧
      Yaml.isBreak '\n' = true := by decide
  rw [Yaml.length_lines whole, agentsLines, tasksLines, Yaml.length_lines agents,
    Yaml.length_lines tasks, toList_declarative]
  simp only [List.countP_append, List.countP_cons, List.countP_nil, marks, Bool.false_eq_true,
    if_false, if_true]
  omega

theorem length_commented (first second : List Char) :
    (graph.commented first second).length =
      graph.agentsLines.length + graph.tasksLines.length + 3 := by
  simp only [commented, List.length_cons, List.length_append]
  omega

/-- Outside the comments the lines are those of the graph. -/
theorem getElem?_commented (first second : List Char) {index : Nat}
    (outside : index ∉ [0, graph.agentsLines.length + 2]) (third fourth : List Char) :
    (graph.commented first second)[index]? = (graph.commented third fourth)[index]? := by
  simp only [List.mem_cons, List.not_mem_nil, or_false, not_or] at outside
  cases index with
  | zero => exact absurd rfl outside.1
  | succ index =>
      rw [commented, commented, List.getElem?_cons_succ, List.getElem?_cons_succ]
      rcases Nat.lt_or_ge index graph.agentsLines.length with inAgents | behind
      · rw [List.getElem?_append_left inAgents, List.getElem?_append_left inAgents]
      · rw [List.getElem?_append_right behind, List.getElem?_append_right behind]
        match place : index - graph.agentsLines.length with
        | 0 => rfl
        | 1 => omega
        | later + 2 => rfl

theorem pathsOnOneLine_of_commented {settings : CompileSettings} {first second : List Char}
    (same : Yaml.lines (graph.declarative settings).toList = graph.commented first second) :
    settings.PathsOnOneLine := by
  have more := graph.length_lines_declarative settings
  rw [same, length_commented, Nat.left_eq_add, List.countP_eq_zero] at more
  intro c member
  exact Bool.eq_false_iff.mpr (more c member)

structure PathsInComments : Prop where
  /-- The artifact has the lines of both documents behind one line of comment each, exactly if no
  path breaks its line. -/
  form : ∀ settings : CompileSettings,
    (∃ first second,
      Yaml.lines (graph.declarative settings).toList = graph.commented first second) ↔
      settings.PathsOnOneLine
  headed : ∀ settings : CompileSettings, settings.PathsOnOneLine →
    Yaml.lines (graph.declarative settings).toList =
      graph.commented settings.agentsPath.toList settings.tasksPath.toList
  /-- Two such artifacts differ in the comments alone. -/
  apart : ∀ settings other : CompileSettings,
    settings.PathsOnOneLine → other.PathsOnOneLine →
      (Yaml.lines (graph.declarative settings).toList).length =
        (Yaml.lines (graph.declarative other).toList).length ∧
      ∀ index, index ∉ [0, graph.agentsLines.length + 2] →
        (Yaml.lines (graph.declarative settings).toList)[index]? =
          (Yaml.lines (graph.declarative other).toList)[index]?

theorem pathsInComments : graph.PathsInComments where
  form := by
    intro settings
    constructor
    · rintro ⟨first, second, same⟩
      exact graph.pathsOnOneLine_of_commented same
    · intro paths
      exact ⟨_, _, graph.lines_declarative paths⟩
  headed := fun _ => graph.lines_declarative
  apart := by
    intro settings other paths otherPaths
    rw [graph.lines_declarative paths, graph.lines_declarative otherPaths, length_commented,
      length_commented]
    refine ⟨rfl, ?_⟩
    intro index outside
    exact graph.getElem?_commented _ _ outside _ _

def pathOfTwoLines : CompileSettings where
  agentsPath := "agents.yaml\nshadow: true"

/-- What stands behind the break of a path is a line of the document. -/
theorem pathOfTwoLines_leavesComment :
    (Yaml.lines (Graph.empty.declarative pathOfTwoLines).toList)[1]? =
        some "shadow: true".toList ∧
      ¬∃ first second, Yaml.lines (Graph.empty.declarative pathOfTwoLines).toList =
        Graph.empty.commented first second := by
  refine ⟨by decide +kernel, ?_⟩
  rintro ⟨first, second, same⟩
  exact absurd (Graph.empty.pathsOnOneLine_of_commented same) (by decide)

end Graph

end CrewCanvas
