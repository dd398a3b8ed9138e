/-
Free data as records of nodes.

Which values read as the data of a node, and as what data: null as an empty record, an
object by the values under its known names, and a list by its items.  The canvas may keep
whatever else it likes in an object.
-/

import CrewCanvas.Proofs.RecordRoundTrip
import CrewCanvas.Proofs.ShapeReading

namespace CrewCanvas

open Json
open List (Forall₂)

/-! ### Entries -/

inductive DataEntry
  | text (value : String)
  | claim (line : Option LineKind)

namespace DataEntry

def IsBlank : DataEntry → Prop
  | text value => value = ""
  | claim line => line = none

/-- The values that are written for an entry.  A claim may be the name of its line, alone or
as the key of null. -/
inductive WrittenAs : DataEntry → Json → Prop
  | text (value : String) : WrittenAs (text value) (.text value)
  | unclaimed : WrittenAs (claim none) .null
  | claimed (line : LineKind) : WrittenAs (claim (some line)) (.text line.name)
  | keyed (line : LineKind) : WrittenAs (claim (some line)) (.record [(line.name, .null)])

/-- What stands under the name of an entry: one value, or nothing for a blank entry. -/
def StandsAmong (entry : DataEntry) : List Json → Prop
  | [] => entry.IsBlank
  | [given] => entry.WrittenAs given
  | _ => False

end DataEntry

/-- An object or a list in which entries are written.  An object may have other keys. -/
inductive EntriesWritten (entries : List (String × DataEntry)) : Json → Prop
  | record {fields : List (String × Json)} :
      (∀ entry ∈ entries, entry.2.StandsAmong (valuesUnder entry.1 fields)) →
        EntriesWritten entries (.record fields)
  | list {items : List Json} {given missing : List DataEntry} :
      entries.map Prod.snd = given ++ missing → Forall₂ DataEntry.WrittenAs given items →
        (∀ entry ∈ missing, entry.IsBlank) → EntriesWritten entries (.list items)

namespace NodeData

def entries : NodeData → List (String × DataEntry)
  | begin => []
  | agent data =>
      [("name", .text data.name), ("role", .text data.role), ("goal", .text data.goal),
        ("backstory", .text data.backstory), ("tools", .text data.tools)]
  | task data =>
      [("name", .text data.name), ("description", .text data.description),
        ("expected_output", .text data.expectedOutput)]
  | reroute claimed => [("claimedType", .claim claimed)]

def WrittenIn (data : NodeData) (value : Json) : Prop :=
  (value = .null ∧ data = empty data.kind) ∨ EntriesWritten data.entries value

end NodeData

/-! ### Fields and entries -/

structure Json.Field.Writes {α : Type} (field : Field α) (value : α) (entry : DataEntry) :
    Prop where
  absent : field.absent = some value ↔ entry.IsBlank
  beyond : field.beyond = some value ↔ entry.IsBlank
  reads : ∀ given, decodeValue field.decode given = .ok value ↔ entry.WrittenAs given

theorem textOrEmpty_writes (name value : String) :
    (Field.textOrEmpty name).Writes value (.text value) where
  absent := by simp [DataEntry.IsBlank, eq_comm]
  beyond := by simp [DataEntry.IsBlank, eq_comm]
  reads := by
    intro given
    constructor
    · intro read
      cases given <;> cases read
      exact DataEntry.WrittenAs.text _
    · intro written
      cases written
      rfl

/-- A variant in memory is a name, alone or as the key of null. -/
theorem Json.Decode.variant_eq_ok_iff {α : Type} {known : List (String × α)} {value : Json}
    {found : α} :
    decodeValue (Decode.variant known) value = .ok found ↔
      ∃ name, Decode.variantOf known name = .ok found ∧
        (value = .text name ∨ value = .record [(name, .null)]) := by
  unfold decodeValue Decode.variant
  match value with
  | .text name =>
      cases sought : Decode.variantOf known name with
      | error fault => simp [Doc.ofValue, Decode.variantParts, sought, bind, Except.bind]
      | ok other =>
          simp [Doc.ofValue, Decode.variantParts, sought, bind, Except.bind, pure, Except.pure]
  | .record [(name, content)] =>
      cases sought : Decode.variantOf known name with
      | error fault =>
          simp [Doc.ofValue, Doc.ofFields, Decode.variantParts, Decode.variantKey, sought, bind,
            Except.bind, pure, Except.pure]
      | ok other =>
          cases content <;>
            simp [Doc.ofValue, Doc.ofFields, Decode.variantParts, Decode.variantKey, sought,
              Decode.unit, bind, Except.bind, pure, Except.pure]
  | .record [] => simp [Doc.ofValue, Doc.ofFields, Decode.variantParts, bind, Except.bind]
  | .record (_ :: _ :: _) =>
      simp [Doc.ofValue, Doc.ofFields, Decode.variantParts, bind, Except.bind]
  | .null | .bool _ | .number _ | .list _ =>
      simp [Doc.ofValue, Decode.variantParts, bind, Except.bind]

theorem Json.Decode.optional_eq_ok_iff {α : Type} {decode : Decoder α} {value : Json}
    {found : Option α} :
    decodeValue (Decode.optional decode) value = .ok found ↔
      (value = .null ∧ found = none) ∨
        (value ≠ .null ∧ ∃ item, found = some item ∧ decodeValue decode value = .ok item) := by
  cases value with
  | null => simp [decodeValue, Doc.ofValue, Decode.optional, eq_comm]
  | _ =>
      change (decodeValue decode _).map some = .ok found ↔ _
      generalize decodeValue decode _ = answer
      cases answer <;> simp [Except.map, eq_comm]

theorem LineKind.variantOf_eq_ok_iff {name : String} {line : LineKind} :
    Decode.variantOf (LineKind.all.map (fun line => (line.name, line))) name = .ok line ↔
      name = line.name := by
  constructor
  · intro sought
    unfold Decode.variantOf at sought
    split at sought
    · rename_i variant named
      have same := List.find?_some named
      have member := List.mem_of_find?_eq_some named
      obtain ⟨other, _, rfl⟩ := List.mem_map.mp member
      cases sought
      exact (of_decide_eq_true same).symm
    · cases sought
  · rintro rfl
    cases line <;> rfl

theorem claim_writes (name : String) (claimed : Option LineKind) :
    (Field.defaulted name (Decode.optional LineKind.decode) none).Writes claimed
      (.claim claimed) where
  absent := by simp [DataEntry.IsBlank, eq_comm]
  beyond := by simp [DataEntry.IsBlank, eq_comm]
  reads := by
    intro given
    change decodeValue (Decode.optional LineKind.decode) given = .ok claimed ↔ _
    unfold LineKind.decode
    simp only [Decode.optional_eq_ok_iff, Decode.variant_eq_ok_iff, LineKind.variantOf_eq_ok_iff,
      exists_eq_left]
    constructor
    · rintro (⟨rfl, rfl⟩ | ⟨_, line, rfl, rfl | rfl⟩)
      · exact DataEntry.WrittenAs.unclaimed
      · exact DataEntry.WrittenAs.claimed line
      · exact DataEntry.WrittenAs.keyed line
    · intro written
      cases written <;> simp

namespace Json

theorem Field.Writes.readsUnder_iff {α : Type} {field : Field α} {value : α} {entry : DataEntry}
    (writes : field.Writes value entry) (given : List Json) :
    field.ReadsUnder value given ↔ entry.StandsAmong given := by
  match given with
  | [] => exact writes.absent
  | [given] => exact writes.reads given
  | _ :: _ :: _ => exact Iff.rfl

namespace Shape

def Writes : {γ σ : Type} → Shape γ σ → γ → List (String × DataEntry) → Prop
  | _, _, .none, _, entries => entries = []
  | _, _, .field first rest, (value, values), entries =>
      ∃ entry more, entries = (first.name, entry) :: more ∧ first.Writes value entry ∧
        rest.Writes values more

theorem readsFields_iff {γ σ : Type} {shape : Shape γ σ} {values : γ}
    {entries : List (String × DataEntry)} (writes : shape.Writes values entries)
    (fields : List (String × Json)) :
    shape.ReadsFields fields values ↔
      ∀ entry ∈ entries, entry.2.StandsAmong (valuesUnder entry.1 fields) := by
  induction shape generalizing entries with
  | none =>
      cases writes
      simp [ReadsFields]
  | field first rest ih =>
      obtain ⟨value, values⟩ := values
      obtain ⟨entry, more, rfl, own, others⟩ := writes
      rw [ReadsFields, own.readsUnder_iff, ih others, List.forall_mem_cons]

theorem readsItems_iff {γ σ : Type} {shape : Shape γ σ} {values : γ}
    {entries : List (String × DataEntry)} (writes : shape.Writes values entries)
    (items : List Json) :
    shape.ReadsItems values items ↔
      ∃ given missing, entries.map Prod.snd = given ++ missing ∧
        Forall₂ DataEntry.WrittenAs given items ∧ ∀ entry ∈ missing, entry.IsBlank := by
  induction shape generalizing entries items with
  | none =>
      cases writes
      constructor
      · intro none
        cases none
        exact ⟨[], [], rfl, Forall₂.nil, by simp⟩
      · rintro ⟨given, missing, split, each, _⟩
        obtain ⟨rfl, rfl⟩ := List.append_eq_nil_iff.mp split.symm
        cases each
        rfl
  | field first rest ih =>
      obtain ⟨value, values⟩ := values
      obtain ⟨entry, more, rfl, own, others⟩ := writes
      cases items with
      | nil =>
          rw [ReadsItems, own.beyond, ih others]
          constructor
          · rintro ⟨blank, given, missing, split, each, allBlank⟩
            cases each
            refine ⟨[], entry :: missing, ?_, Forall₂.nil, ?_⟩
            · rw [List.map_cons, split, List.nil_append, List.nil_append]
            · exact List.forall_mem_cons.mpr ⟨blank, allBlank⟩
          · rintro ⟨given, missing, split, each, allBlank⟩
            cases each
            rw [List.map_cons, List.nil_append] at split
            subst split
            rw [List.forall_mem_cons] at allBlank
            exact ⟨allBlank.1, [], more.map Prod.snd, rfl, Forall₂.nil, allBlank.2⟩
      | cons item items =>
          rw [ReadsItems, own.reads, ih others]
          constructor
          · rintro ⟨written, given, missing, split, each, allBlank⟩
            refine ⟨entry :: given, missing, ?_, Forall₂.cons written each, allBlank⟩
            rw [List.map_cons, split, List.cons_append]
          · rintro ⟨given, missing, split, each, allBlank⟩
            cases each with
            | cons written each =>
                rw [List.map_cons, List.cons_append, List.cons.injEq] at split
                obtain ⟨rfl, split⟩ := split
                exact ⟨written, _, missing, split, each, allBlank⟩

/-- A record reads from what its entries are written in. -/
theorem decodeValue_eq_ok_iff {γ σ : Type} {shape : Shape γ σ} (unique : shape.names.Nodup)
    {expected : String} {values : γ} {entries : List (String × DataEntry)}
    (writes : shape.Writes values entries) {value : Json} :
    decodeValue (shape.decode expected) value = .ok values ↔ EntriesWritten entries value := by
  cases value with
  | record fields =>
      rw [decode_record_iff unique, readsFields_iff writes]
      constructor
      · exact EntriesWritten.record
      · rintro ⟨stands⟩
        exact stands
  | list items =>
      rw [decode_list_iff, readsItems_iff writes]
      constructor
      · rintro ⟨given, missing, split, each, blank⟩
        exact EntriesWritten.list split each blank
      · intro written
        cases written with
        | list split each blank => exact ⟨_, _, split, each, blank⟩
  | _ => 
    constructor
    · intro read
      cases read
    · intro written
      cases written

/-- What is made of the record, where each outcome is made of one record alone. -/
theorem decodeValue_bind_eq_ok_iff {γ σ α : Type} {shape : Shape γ σ} {expected : String}
    {next : γ → Except Fault α} {found : α} (values : γ) {entries : List (String × DataEntry)}
    (makes : ∀ others, next others = .ok found ↔ others = values)
    (writes : shape.Writes values entries) (unique : shape.names.Nodup) {value : Json} :
    (decodeValue (shape.decode expected) value).bind next = .ok found ↔
      EntriesWritten entries value := by
  rw [← decodeValue_eq_ok_iff unique writes]
  cases decodeValue (shape.decode expected) value with
  | error fault => simp [Except.bind]
  | ok others => simpa [Except.bind] using makes others

end Shape

end Json

/-! ### Data -/

theorem AgentData.decode_eq_ok_iff {value : Json} {data : AgentData} :
    decodeValue AgentData.decode value = .ok data ↔
      EntriesWritten (NodeData.agent data).entries value := by
  apply Shape.decodeValue_bind_eq_ok_iff
    (data.name, data.role, data.goal, data.backstory, data.tools, ())
  · rintro ⟨name, role, goal, backstory, tools, _⟩
    cases data
    simp [pure, Except.pure]
  · exact ⟨_, _, rfl, textOrEmpty_writes _ _, _, _, rfl, textOrEmpty_writes _ _,
      _, _, rfl, textOrEmpty_writes _ _, _, _, rfl, textOrEmpty_writes _ _,
      _, _, rfl, textOrEmpty_writes _ _, rfl⟩
  · simp

theorem TaskData.decode_eq_ok_iff {value : Json} {data : TaskData} :
    decodeValue TaskData.decode value = .ok data ↔
      EntriesWritten (NodeData.task data).entries value := by
  apply Shape.decodeValue_bind_eq_ok_iff (data.name, data.description, data.expectedOutput, ())
  · rintro ⟨name, description, expectedOutput, _⟩
    cases data
    simp [pure, Except.pure]
  · exact ⟨_, _, rfl, textOrEmpty_writes _ _, _, _, rfl, textOrEmpty_writes _ _,
      _, _, rfl, textOrEmpty_writes _ _, rfl⟩
  · simp

theorem decodeRerouteData_eq_ok_iff {value : Json} {claimed : Option LineKind} :
    decodeValue decodeRerouteData value = .ok claimed ↔
      EntriesWritten (NodeData.reroute claimed).entries value := by
  apply Shape.decodeValue_bind_eq_ok_iff (claimed, ())
  · rintro ⟨other, _⟩
    simp [pure, Except.pure]
  · exact ⟨_, _, rfl, claim_writes _ _, rfl⟩
  · simp

theorem decodeBeginData_eq_ok_iff {value : Json} {nothing : Unit} :
    decodeValue decodeBeginData value = .ok nothing ↔
      EntriesWritten NodeData.begin.entries value := by
  have writes : Shape.none.Writes nothing NodeData.begin.entries := rfl
  exact Shape.decodeValue_eq_ok_iff (by simp) writes

theorem map_eq_ok_iff {ε α β : Type} {make : α → β} {answer : Except ε α} {made : β} :
    answer.map make = .ok made ↔ ∃ found, answer = .ok found ∧ make found = made := by
  cases answer <;> simp [Except.map]

namespace NodeData

/-- Data reads from what its entries are written in. -/
theorem decodeValue_eq_ok_iff {kind : NodeKind} {value : Json} {data : NodeData} :
    decodeValue (decode kind) value = .ok data ↔
      data.kind = kind ∧ EntriesWritten data.entries value := by
  cases kind with
  | begin =>
      change (decodeValue decodeBeginData value).map (fun _ => begin) = .ok data ↔ _
      simp only [map_eq_ok_iff, decodeBeginData_eq_ok_iff]
      cases data <;> simp [NodeData.kind]
  | agent =>
      change (decodeValue AgentData.decode value).map agent = .ok data ↔ _
      simp only [map_eq_ok_iff, AgentData.decode_eq_ok_iff]
      cases data <;> simp [NodeData.kind]
  | task =>
      change (decodeValue TaskData.decode value).map task = .ok data ↔ _
      simp only [map_eq_ok_iff, TaskData.decode_eq_ok_iff]
      cases data <;> simp [NodeData.kind]
  | reroute =>
      change (decodeValue decodeRerouteData value).map reroute = .ok data ↔ _
      simp only [map_eq_ok_iff, decodeRerouteData_eq_ok_iff]
      cases data <;> simp [NodeData.kind]

theorem ofJson_eq_ok_iff {kind : NodeKind} {value : Json} {data : NodeData} :
    ofJson kind value = .ok data ↔ data.kind = kind ∧ data.WrittenIn value := by
  have nothing : ¬EntriesWritten data.entries .null := by
    intro written
    cases written
  cases value with
  | null =>
      simp only [ofJson, WrittenIn, nothing, or_false, true_and, Except.ok.injEq]
      constructor
      · rintro rfl
        simp
      · rintro ⟨rfl, same⟩
        exact same.symm
  | _ =>
      change (decodeValue (decode kind) _).mapError _ = .ok data ↔ _
      simp only [WrittenIn, reduceCtorEq, false_and, false_or, ← decodeValue_eq_ok_iff]
      generalize decodeValue (decode kind) _ = answer
      cases answer <;> simp [Except.mapError]

end NodeData

end CrewCanvas
