/-
A reader of the scaffold.

It finds the lines behind each decorator and takes from them the name that is defined there,
the key that is looked up, the output file and the factories that are called.  Names without
blanks are read back from a list of calls, and any text from a literal.
-/

import CrewCanvas.Proofs.ScaffoldLines

namespace CrewCanvas.Scaffold

/-! ### Reading -/

def between? (lead trail : String) (text : List Char) : Option (List Char) :=
  (lead.toList.isPrefixOf? text).bind trail.toList.isSuffixOf?

def field? (lead trail : String) (block : List String) : Option (List Char) :=
  block.findSome? (fun line => between? lead trail line.toList)

def parts : List Char → List (List Char)
  | [] => [[]]
  | ',' :: ' ' :: rest => [] :: parts rest
  | c :: rest =>
      match parts rest with
      | [] => [[c]]
      | part :: more => (c :: part) :: more

def call? (part : List Char) : Option String := (between? "self." "()" part).map String.ofList

def items? (item? : List Char → Option String) (listed : List Char) : Option (List String) :=
  if listed.isEmpty then some [] else (parts listed).mapM item?

def calls? (listed : List Char) : Option (List String) := items? call? listed

def literal? (text : List Char) : Option String := (Literal.read? text).map String.ofList

def closing : String := "        )"

/-- The lines between each decorator of a kind and the end of its factory. -/
def blocks (decorator : String) : List String → List (List String)
  | [] => []
  | line :: rest =>
      if line = decorator then
        rest.takeWhile (fun inside => inside ≠ closing) :: blocks decorator rest
      else blocks decorator rest

structure FactoryKind where
  decorator : String
  returns : String
  table : String

def agentKind : FactoryKind := ⟨"    @agent", "Agent", "agents_config"⟩

def taskKind : FactoryKind := ⟨"    @task", "Task", "tasks_config"⟩

def crewDecorator : String := "    @crew"

structure Factory where
  name : String
  key : String
  output : Option String := none
  context : List String := []
  deriving DecidableEq

def Factory.read? (kind : FactoryKind) (block : List String) : Option Factory := do
  let name ← field? "    def " ("(self) -> " ++ kind.returns ++ ":") block
  let key ← (field? ("            config=self." ++ kind.table ++ "[") "]," block).bind literal?
  let output ←
    match field? "            output_file=" "," block with
    | none => some none
    | some quoted => (literal? quoted).map some
  let context ←
    match field? "            context=[" "]," block with
    | none => some []
    | some listed => calls? listed
  return { name := String.ofList name, key, output, context }

structure Crew where
  agents : List String
  tasks : List String
  deriving DecidableEq

def Crew.read? (block : List String) : Option Crew := do
  let agents ← (field? "            agents=[" "]," block).bind calls?
  let tasks ← (field? "            tasks=[" "]," block).bind calls?
  return { agents, tasks }

structure Module where
  agents : List Factory
  tasks : List Factory
  crews : List Crew
  deriving DecidableEq

def Module.read? (text : String) : Option Module := do
  let lines := (text.toList.splitOn '\n').map String.ofList
  let agents ← (blocks agentKind.decorator lines).mapM (Factory.read? agentKind)
  let tasks ← (blocks taskKind.decorator lines).mapM (Factory.read? taskKind)
  let crews ← (blocks crewDecorator lines).mapM Crew.read?
  return { agents, tasks, crews }

/-! ### Fields -/

theorem between?_eq_some_iff {lead trail : String} {line middle : List Char} :
    between? lead trail line = some middle ↔
      line = lead.toList ++ (middle ++ trail.toList) := by
  unfold between?
  rw [Option.bind_eq_some_iff]
  constructor
  · intro found
    obtain ⟨rest, isRest, isMiddle⟩ := found
    rw [List.isPrefixOf?_eq_some_iff_append_eq] at isRest
    rw [List.isSuffixOf?_eq_some_iff_append_eq] at isMiddle
    rw [← isRest, ← isMiddle]
  · intro shape
    exact ⟨middle ++ trail.toList, List.isPrefixOf?_eq_some_iff_append_eq.mpr shape.symm,
      List.isSuffixOf?_eq_some_iff_append_eq.mpr rfl⟩

@[simp] theorem toList_indented (level : Nat) (line : String) :
    (indented level line).toList = List.replicate (4 * level) ' ' ++ line.toList := by
  simp [indented]

theorem field?_behind {lead trail line : String} {middle : List Char} (before : List String)
    (missed : ∀ other ∈ before, lead.toList.isPrefixOf? other.toList = none)
    (found : line.toList = lead.toList ++ (middle ++ trail.toList)) (after : List String) :
    field? lead trail (before ++ line :: after) = some middle := by
  induction before with
  | nil => rw [List.nil_append, field?, List.findSome?_cons, between?_eq_some_iff.mpr found]
  | cons other rest ih =>
      have later := ih (fun line member => missed line (List.mem_cons_of_mem _ member))
      rw [List.cons_append, field?, List.findSome?_cons, between?,
        missed other List.mem_cons_self]
      exact later

theorem field?_missing {lead trail : String} {block : List String}
    (missed : ∀ line ∈ block, lead.toList.isPrefixOf? line.toList = none) :
    field? lead trail block = none := by
  rw [field?, List.findSome?_eq_none_iff]
  intro line member
  rw [between?, missed line member]
  rfl

theorem literal?_ofText (text : String) : literal? (Literal.ofText text).toList = some text := by
  rw [literal?, Literal.toList_ofText, Literal.read?_write, Option.map_some, String.ofList_toList]

/-! ### Lists of calls -/

theorem parts_append {part : List Char} (unbroken : ' ' ∉ part) (rest : List Char) :
    parts (part ++ ',' :: ' ' :: rest) = part :: parts rest := by
  induction part with
  | nil => rw [List.nil_append, parts]
  | cons c part ih =>
      rw [List.mem_cons, not_or] at unbroken
      have later := ih unbroken.2
      rw [List.cons_append, parts, later]
      -- A comma inside the part is no separator, because no blank follows it.
      intro others isComma isBlank
      cases part with
      | nil => cases isBlank
      | cons next part =>
          cases isBlank
          exact unbroken.2 List.mem_cons_self

theorem parts_unbroken {part : List Char} (unbroken : ' ' ∉ part) : parts part = [part] := by
  induction part with
  | nil => rfl
  | cons c part ih =>
      rw [List.mem_cons, not_or] at unbroken
      rw [parts, ih unbroken.2]
      intro others isComma isBlank
      exact unbroken.2 (isBlank ▸ List.mem_cons_self)

theorem parts_intercalate {texts : List (List Char)} (some : texts ≠ [])
    (unbroken : ∀ text ∈ texts, ' ' ∉ text) :
    parts ([',', ' '].intercalate texts) = texts := by
  induction texts with
  | nil => exact absurd rfl some
  | cons first rest ih =>
      have head := unbroken first List.mem_cons_self
      cases rest with
      | nil => rw [List.intercalate_singleton, parts_unbroken head]
      | cons second rest =>
          have others := ih (List.cons_ne_nil _ _)
            (fun text member => unbroken text (List.mem_cons_of_mem _ member))
          rw [List.intercalate_cons_cons, List.append_assoc, List.cons_append,
            List.cons_append, List.nil_append, parts_append head, others]

/-- Items are read back from the list of their written forms. -/
theorem items?_joinWith {write : String → String} {item? : List Char → Option String}
    {items : List String}
    (shown : ∀ item ∈ items, (write item).toList ≠ [] ∧ ' ' ∉ (write item).toList)
    (reads : ∀ item ∈ items, item? (write item).toList = some item) :
    items? item? (Text.joinWith ", " (items.map write)).toList = some items := by
  have texts : (Text.joinWith ", " (items.map write)).toList =
      [',', ' '].intercalate (items.map (fun item => (write item).toList)) := by
    rw [Text.joinWith, String.toList_intercalate, List.map_map]
    rfl
  have unbroken : ∀ text ∈ items.map (fun item => (write item).toList), ' ' ∉ text := by
    intro text member
    obtain ⟨item, listed, rfl⟩ := List.mem_map.mp member
    exact (shown item listed).2
  cases items with
  | nil => rfl
  | cons first rest =>
      have some : (first :: rest).map (fun item => (write item).toList) ≠ [] := by simp
      have filled : (Text.joinWith ", " ((first :: rest).map write)).toList.isEmpty = false := by
        have head := (shown first List.mem_cons_self).1
        cases rest <;> simp_all
      rw [items?, filled, texts, parts_intercalate some unbroken, mapM_map reads, List.map_id']
      rfl

theorem call?_call (identifier : String) :
    call? ("self." ++ identifier ++ "()").toList = some identifier := by
  have found : between? "self." "()" ("self." ++ identifier ++ "()").toList =
      some identifier.toList := by
    rw [between?_eq_some_iff, String.toList_append, String.toList_append, List.append_assoc]
  rw [call?, found, Option.map_some, String.ofList_toList]

theorem space_notMem_of_unbroken {name : String} (unbroken : Identifiers.Unbroken name) :
    ' ' ∉ name.toList := by
  intro blank
  exact absurd (unbroken ' ' blank) (by decide)

theorem calls?_calls {identifiers : List String}
    (unbroken : ∀ identifier ∈ identifiers, Identifiers.Unbroken identifier) :
    calls? (calls identifiers).toList = some identifiers := by
  have shown : ∀ identifier ∈ identifiers, ("self." ++ identifier ++ "()").toList ≠ [] ∧
      ' ' ∉ ("self." ++ identifier ++ "()").toList := by
    intro identifier listed
    have inName := space_notMem_of_unbroken (unbroken identifier listed)
    simp [inName]
  exact items?_joinWith shown (fun identifier _ => call?_call identifier)

end CrewCanvas.Scaffold
