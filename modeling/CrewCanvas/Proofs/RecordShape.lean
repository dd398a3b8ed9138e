/-
Objects read as records.

The fields of an object may come in any order.  If each field that is there reads as its
value, and each one that is not there has its value for that case, the object reads as the
record of these values.
-/

import CrewCanvas.Json.Shape
import CrewCanvas.Proofs.Lists

namespace CrewCanvas.Json

def Doc.object (fields : List (String × Doc)) : Doc :=
  .record (fields.map (fun field => (.text (some field.1), field.2))) true

theorem Doc.ofFields_eq_map (fields : List (String × Json)) :
    Doc.ofFields fields =
      (fields.map (fun field => (field.1, Doc.ofValue field.2))).map
        (fun field => (Doc.text (some field.1), field.2)) := by
  induction fields with
  | nil => rfl
  | cons field rest ih => simp only [Doc.ofFields, List.map_cons, ih]

theorem Doc.ofValue_record (fields : List (String × Json)) :
    Doc.ofValue (.record fields) =
      Doc.object (fields.map (fun field => (field.1, Doc.ofValue field.2))) := by
  rw [Doc.ofValue, Doc.ofFields_eq_map, Doc.object]

namespace Shape

def names : {γ σ : Type} → Shape γ σ → List String
  | _, _, .none => []
  | _, _, .field first rest => first.name :: rest.names

def Reads (origin : Origin) (fields : List (String × Doc)) :
    {γ σ : Type} → Shape γ σ → γ → Prop
  | _, _, .none, _ => True
  | _, _, .field first rest, (value, values) =>
      (match fields.lookup first.name with
        | some doc => first.decode origin doc = .ok value
        | Option.none => first.absent = some value) ∧
      rest.Reads origin fields values

attribute [simp] names Reads Field.required Field.optional Field.defaulted

/-- The slots of a record while the keys in `read` have been met. -/
def slots (read : List String) : {γ σ : Type} → Shape γ σ → γ → σ
  | _, _, .none, _ => ()
  | _, _, .field first rest, (value, values) =>
      (if first.name ∈ read then some value else Option.none, rest.slots read values)

theorem slots_nil {γ σ : Type} (shape : Shape γ σ) (values : γ) :
    shape.slots [] values = shape.emptySlots := by
  induction shape with
  | none => rfl
  | field first rest ih => simp [slots, emptySlots, ih]

theorem slots_cons_of_notMem {γ σ : Type} {shape : Shape γ σ} {key : String}
    (unknown : key ∉ shape.names) (read : List String) (values : γ) :
    shape.slots (key :: read) values = shape.slots read values := by
  induction shape with
  | none => rfl
  | field first rest ih =>
      rw [names, List.mem_cons, not_or] at unknown
      have kept : first.name ∈ key :: read ↔ first.name ∈ read := by
        simp [Ne.symm unknown.1]
      simp only [slots, kept, ih unknown.2]

theorem fill_slots {γ σ : Type} {origin : Origin} {fields : List (String × Doc)}
    {shape : Shape γ σ} {values : γ} (reads : shape.Reads origin fields values)
    (unique : shape.names.Nodup) {key : String} {doc : Doc}
    (found : fields.lookup key = some doc) (known : key ∈ shape.names) {read : List String}
    (fresh : key ∉ read) :
    shape.fill origin key doc (shape.slots read values) =
      .ok (shape.slots (key :: read) values) := by
  induction shape with
  | none => cases known
  | field first rest ih =>
      obtain ⟨value, values⟩ := values
      rw [names, List.nodup_cons] at unique
      by_cases named : first.name = key
      · have decoded := reads.1
        rw [named, found] at decoded
        have here : first.name ∉ read := named ▸ fresh
        have met : first.name ∈ key :: read := named ▸ List.mem_cons_self
        have unknown : key ∉ rest.names := named ▸ unique.1
        simp only [slots, fill, if_neg here, if_pos met, if_pos named, decoded,
          slots_cons_of_notMem unknown]
        rfl
      · have inRest : key ∈ rest.names := by
          rcases List.mem_cons.mp known with isFirst | later
          · exact absurd isFirst.symm named
          · exact later
        have kept : first.name ∈ key :: read ↔ first.name ∈ read := by simp [named]
        simp only [slots, fill, if_neg named, ih reads.2 unique.2 inRest, kept]
        rfl

theorem fillAll_slots {γ σ : Type} {origin : Origin} {fields : List (String × Doc)}
    {shape : Shape γ σ} {values : γ} (reads : shape.Reads origin fields values)
    (unique : shape.names.Nodup) {more : List (String × Doc)} {read : List String}
    (found : ∀ field ∈ more, fields.lookup field.1 = some field.2)
    (known : ∀ field ∈ more, field.1 ∈ shape.names)
    (fresh : ∀ field ∈ more, field.1 ∉ read) (distinct : (more.map Prod.fst).Nodup) :
    shape.fillAll origin (more.map (fun field => (.text (some field.1), field.2)))
        (shape.slots read values) =
      .ok (shape.slots ((more.map Prod.fst).reverse ++ read) values) := by
  -- The slots of the keys that were read hold their values, the others are empty.
  induction more generalizing read with
  | nil => rfl
  | cons field rest ih =>
      rw [List.map_cons, List.nodup_cons] at distinct
      have filled := fill_slots reads unique (found field List.mem_cons_self)
        (known field List.mem_cons_self) (fresh field List.mem_cons_self)
      have later : ∀ other ∈ rest, other.1 ∉ field.1 :: read := by
        intro other member met
        rcases List.mem_cons.mp met with same | old
        · exact distinct.1 (same ▸ List.mem_map_of_mem member)
        · exact fresh other (List.mem_cons_of_mem _ member) old
      have others := ih (fun other member => found other (List.mem_cons_of_mem _ member))
        (fun other member => known other (List.mem_cons_of_mem _ member)) later distinct.2
      rw [List.map_cons, fillAll, filled]
      simpa [bind, Except.bind] using others

theorem finish_slots {γ σ : Type} {origin : Origin} {fields : List (String × Doc)}
    {shape : Shape γ σ} {values : γ} (reads : shape.Reads origin fields values)
    {read : List String} (all : ∀ key, key ∈ read ↔ key ∈ fields.map Prod.fst) :
    shape.finish (shape.slots read values) = .ok values := by
  induction shape with
  | none => rfl
  | field first rest ih =>
      obtain ⟨value, values⟩ := values
      have head := reads.1
      cases found : fields.lookup first.name with
      | some doc =>
          have met : first.name ∈ read := by
            obtain ⟨before, after, split, _⟩ := List.lookup_eq_some_iff.mp found
            simp [all, split]
          simp only [slots, finish, if_pos met, ih reads.2]
          rfl
      | none =>
          rw [found] at head
          have unmet : first.name ∉ read := by
            rw [all, List.mem_map]
            rintro ⟨field, member, same⟩
            simpa [same] using List.lookup_eq_none_iff.mp found field member
          simp only [slots, finish, if_neg unmet, head, ih reads.2]
          rfl

/-- The record of an object that has its values. -/
theorem decode_object {γ σ : Type} {origin inner : Origin} {fields : List (String × Doc)}
    {shape : Shape γ σ} {values : γ} (expected : String) (entered : origin.enter = .ok inner)
    (unique : shape.names.Nodup) (distinct : (fields.map Prod.fst).Nodup)
    (known : ∀ key ∈ fields.map Prod.fst, key ∈ shape.names)
    (reads : shape.Reads inner fields values) :
    shape.decode expected origin (Doc.object fields) = .ok values := by
  have filled := fillAll_slots reads unique (fun _ member => lookup_of_mem distinct member)
    (fun _ member => known _ (List.mem_map_of_mem member))
    (fun _ _ => List.not_mem_nil) distinct
  rw [slots_nil] at filled
  have all (key : String) : key ∈ (fields.map Prod.fst).reverse ++ [] ↔
      key ∈ fields.map Prod.fst := by simp
  rw [Doc.object, decode, entered]
  simp only [filled, finish_slots reads all, bind, Except.bind, if_true]

/-- What is made of the record of an object that has its values. -/
theorem decode_object_bind {γ σ α : Type} {origin inner : Origin} {fields : List (String × Doc)}
    {shape : Shape γ σ} {expected : String} {next : γ → Except Fault α}
    (entered : origin.enter = .ok inner) (values : γ) (reads : shape.Reads inner fields values)
    (unique : shape.names.Nodup) (distinct : (fields.map Prod.fst).Nodup)
    (known : ∀ key ∈ fields.map Prod.fst, key ∈ shape.names) :
    (shape.decode expected origin (Doc.object fields)).bind next = next values := by
  rw [decode_object expected entered unique distinct known reads]
  rfl

end Shape

end CrewCanvas.Json
