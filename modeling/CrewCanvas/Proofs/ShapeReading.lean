/-
Values in memory read as records.

An object reads as a record exactly if the values under the name of each field give that
field its value: one value that reads as it, or none where the field may be left out.  All
other keys are skipped.  A list reads as a record exactly if its items read as the first
fields, in the order of declaration, and the fields beyond it may be left out.
-/

import CrewCanvas.Proofs.RecordShape

namespace CrewCanvas.Json

/-! ### Values are whole -/

mutual

theorem Doc.isWhole_ofValue (value : Json) : (Doc.ofValue value).isWhole = true := by
  cases value with
  | list items => simp [Doc.ofValue, Doc.isWhole, Doc.areWhole_ofValues items]
  | record fields => simp [Doc.ofValue, Doc.isWhole, Doc.fieldsAreWhole_ofFields fields]
  | _ => rfl

theorem Doc.areWhole_ofValues (items : List Json) : Doc.areWhole (Doc.ofValues items) = true := by
  cases items with
  | nil => rfl
  | cons item rest =>
      simp [Doc.ofValues, Doc.areWhole, Doc.isWhole_ofValue item, Doc.areWhole_ofValues rest]

theorem Doc.fieldsAreWhole_ofFields (fields : List (String × Json)) :
    Doc.fieldsAreWhole (Doc.ofFields fields) = true := by
  cases fields with
  | nil => rfl
  | cons field rest =>
      simp [Doc.ofFields, Doc.fieldsAreWhole, Doc.isWhole_ofValue field.2,
        Doc.fieldsAreWhole_ofFields rest]

end

/-! ### What a record is read from -/

def valuesUnder (name : String) (fields : List (String × Json)) : List Json :=
  (fields.filter (fun field => field.1 = name)).map Prod.snd

theorem valuesUnder_cons_own (name : String) (value : Json) (fields : List (String × Json)) :
    valuesUnder name ((name, value) :: fields) = value :: valuesUnder name fields := by
  simp [valuesUnder]

theorem valuesUnder_cons_other {name key : String} (other : name ≠ key) (value : Json)
    (fields : List (String × Json)) :
    valuesUnder name ((key, value) :: fields) = valuesUnder name fields := by
  simp [valuesUnder, Ne.symm other]

def Field.ReadsUnder {α : Type} (field : Field α) (value : α) : List Json → Prop
  | [] => field.absent = some value
  | [given] => decodeValue field.decode given = .ok value
  | _ => False

namespace Shape

def ReadsFields (fields : List (String × Json)) : {γ σ : Type} → Shape γ σ → γ → Prop
  | _, _, .none, _ => True
  | _, _, .field first rest, (value, values) =>
      first.ReadsUnder value (valuesUnder first.name fields) ∧ rest.ReadsFields fields values

def ReadsItems : {γ σ : Type} → Shape γ σ → γ → List Json → Prop
  | _, _, .none, _, items => items = []
  | _, _, .field first rest, (value, values), [] =>
      first.beyond = some value ∧ rest.ReadsItems values []
  | _, _, .field first rest, (value, values), item :: items =>
      decodeValue first.decode item = .ok value ∧ rest.ReadsItems values items

end Shape

/-! ### Slots -/

/-- What values under the name of a field make of its slot: a slot that is full takes no
other value. -/
inductive Field.Fills {α : Type} (field : Field α) : Option α → List Json → Option α → Prop
  | kept {slot : Option α} : Fills field slot [] slot
  | read {given : Json} {value : α} :
      decodeValue field.decode given = .ok value → Fills field none [given] (some value)

theorem Field.fills_full_iff {α : Type} {field : Field α} {value : α} {given : List Json}
    {slot : Option α} : field.Fills (some value) given slot ↔ given = [] ∧ slot = some value := by
  constructor
  · intro fills
    cases fills
    exact ⟨rfl, rfl⟩
  · rintro ⟨rfl, rfl⟩
    exact Fills.kept

theorem Field.fills_cons_iff {α : Type} {field : Field α} {given : Json} {more : List Json}
    {slot : Option α} :
    field.Fills none (given :: more) slot ↔
      ∃ value, decodeValue field.decode given = .ok value ∧ field.Fills (some value) more slot := by
  simp only [fills_full_iff]
  constructor
  · intro fills
    cases fills with
    | read decoded => exact ⟨_, decoded, rfl, rfl⟩
  · rintro ⟨value, decoded, rfl, rfl⟩
    exact Fills.read decoded

theorem Field.readsUnder_iff {α : Type} {field : Field α} {value : α} {given : List Json} :
    field.ReadsUnder value given ↔
      ∃ slot, field.Fills none given slot ∧ (slot.or field.absent) = some value := by
  constructor
  · intro reads
    match given, reads with
    | [], reads => exact ⟨none, Fills.kept, reads⟩
    | [_], reads => exact ⟨some value, Fills.read reads, rfl⟩
  · rintro ⟨slot, fills, finished⟩
    cases fills with
    | kept => exact finished
    | read decoded =>
        cases finished
        exact decoded

namespace Shape

def FillsAll (fields : List (String × Json)) : {γ σ : Type} → Shape γ σ → σ → σ → Prop
  | _, _, .none, _, _ => True
  | _, _, .field first rest, (slot, others), (full, fullOthers) =>
      first.Fills slot (valuesUnder first.name fields) full ∧
        rest.FillsAll fields others fullOthers

theorem fillsAll_nil {γ σ : Type} {shape : Shape γ σ} {slots full : σ} :
    shape.FillsAll [] slots full ↔ slots = full := by
  induction shape with
  | none => exact iff_of_true trivial rfl
  | field first rest ih =>
      obtain ⟨slot, others⟩ := slots
      obtain ⟨fullSlot, fullOthers⟩ := full
      rw [FillsAll, ih, Prod.mk.injEq]
      apply and_congr_left'
      constructor
      · intro fills
        cases fills
        rfl
      · rintro rfl
        exact Field.Fills.kept

theorem fillsAll_cons_of_notMem {γ σ : Type} {shape : Shape γ σ} {key : String}
    (unknown : key ∉ shape.names) {given : Json} {fields : List (String × Json)}
    {slots full : σ} :
    shape.FillsAll ((key, given) :: fields) slots full ↔ shape.FillsAll fields slots full := by
  induction shape with
  | none => exact Iff.rfl
  | field first rest ih =>
      rw [names, List.mem_cons, not_or] at unknown
      simp only [FillsAll, valuesUnder_cons_other (Ne.symm unknown.1), ih unknown.2]

theorem fillsAll_cons_iff {γ σ : Type} {shape : Shape γ σ} (unique : shape.names.Nodup)
    {key : String} {given : Json} {fields : List (String × Json)} {slots full : σ} :
    shape.FillsAll ((key, given) :: fields) slots full ↔
      ∃ middle, shape.fill .memory key (Doc.ofValue given) slots = .ok middle ∧
        shape.FillsAll fields middle full := by
  induction shape with
  | none => simp [FillsAll, fill, Doc.isWhole_ofValue]
  | field first rest ih =>
      obtain ⟨slot, others⟩ := slots
      obtain ⟨fullSlot, fullOthers⟩ := full
      rw [names, List.nodup_cons] at unique
      -- At most one field has the key, so the slots of all others stay as they are.
      by_cases named : first.name = key
      · subst named
        rw [FillsAll, fillsAll_cons_of_notMem unique.1, valuesUnder_cons_own]
        simp only [fill, if_true]
        cases slot with
        | some value => simp [Field.fills_full_iff]
        | none =>
            rw [Field.fills_cons_iff]
            cases decoded : first.decode .memory (Doc.ofValue given) with
            | error fault => simp [decodeValue, decoded, bind, Except.bind]
            | ok value =>
                simp [decodeValue, decoded, bind, Except.bind, pure, Except.pure, FillsAll]
      · rw [FillsAll, valuesUnder_cons_other named, ih unique.2]
        simp only [fill, if_neg named]
        cases filled : rest.fill .memory key (Doc.ofValue given) others with
        | error fault => simp [bind, Except.bind]
        | ok middle => simp [bind, Except.bind, pure, Except.pure, FillsAll]

theorem fillAll_ofFields_iff {γ σ : Type} {shape : Shape γ σ} (unique : shape.names.Nodup)
    {fields : List (String × Json)} {slots full : σ} :
    shape.fillAll .memory (Doc.ofFields fields) slots = .ok full ↔
      shape.FillsAll fields slots full := by
  induction fields generalizing slots with
  | nil =>
      rw [Doc.ofFields, fillAll, Except.ok.injEq]
      exact fillsAll_nil.symm
  | cons field rest ih =>
      obtain ⟨key, given⟩ := field
      rw [fillsAll_cons_iff unique, Doc.ofFields, fillAll]
      cases filled : shape.fill .memory key (Doc.ofValue given) slots with
      | error fault => simp [bind, Except.bind]
      | ok middle => simpa [bind, Except.bind] using ih

theorem finish_field_iff {α γ σ : Type} {first : Field α} {rest : Shape γ σ} {slot : Option α}
    {others : σ} {value : α} {values : γ} :
    (Shape.field first rest).finish (slot, others) = .ok (value, values) ↔
      slot.or first.absent = some value ∧ rest.finish others = .ok values := by
  simp only [finish]
  cases finished : rest.finish others with
  | error fault =>
      cases slot <;> cases first.absent <;> simp [bind, Except.bind]
  | ok found =>
      cases slot <;> cases first.absent <;>
        simp [bind, Except.bind, pure, Except.pure]

theorem finish_filled_iff {γ σ : Type} {shape : Shape γ σ} {fields : List (String × Json)}
    {values : γ} :
    (∃ full, shape.FillsAll fields shape.emptySlots full ∧ shape.finish full = .ok values) ↔
      shape.ReadsFields fields values := by
  induction shape with
  | none => exact iff_of_true ⟨(), trivial, rfl⟩ trivial
  | field first rest ih =>
      obtain ⟨value, values⟩ := values
      rw [ReadsFields, Field.readsUnder_iff, ← ih]
      constructor
      · rintro ⟨⟨slot, others⟩, ⟨fills, fillsOthers⟩, finished⟩
        rw [finish_field_iff] at finished
        exact ⟨⟨slot, fills, finished.1⟩, others, fillsOthers, finished.2⟩
      · rintro ⟨⟨slot, fills, finished⟩, others, fillsOthers, finishedOthers⟩
        exact ⟨(slot, others), ⟨fills, fillsOthers⟩,
          finish_field_iff.mpr ⟨finished, finishedOthers⟩⟩

/-! ### Records in memory -/

theorem decode_record_iff {γ σ : Type} {shape : Shape γ σ} (unique : shape.names.Nodup)
    {expected : String} {fields : List (String × Json)} {values : γ} :
    decodeValue (shape.decode expected) (.record fields) = .ok values ↔
      shape.ReadsFields fields values := by
  rw [← finish_filled_iff, decodeValue, Doc.ofValue, decode]
  simp only [← fillAll_ofFields_iff unique]
  cases filled : shape.fillAll .memory (Doc.ofFields fields) shape.emptySlots with
  | error fault => simp [Origin.enter, filled, bind, Except.bind]
  | ok full => simp [Origin.enter, filled, bind, Except.bind]

theorem ofItems_iff {γ σ : Type} {shape : Shape γ σ} (described : String) (count : Nat)
    {items : List Json} {values : γ} :
    shape.ofItems .memory described true count (Doc.ofValues items) = .ok (values, []) ↔
      shape.ReadsItems values items := by
  induction shape generalizing count items with
  | none => cases items <;> simp [ofItems, Doc.ofValues, ReadsItems]
  | field first rest ih =>
      obtain ⟨value, values⟩ := values
      cases items with
      | nil =>
          rw [ReadsItems, ← ih (count + 1)]
          simp only [Doc.ofValues, ofItems]
          cases first.beyond with
          | none => simp
          | some default =>
              cases rest.ofItems .memory described true (count + 1) [] with
              | error fault => simp [bind, Except.bind]
              | ok read => simp [bind, Except.bind, pure, Except.pure, Prod.ext_iff, and_assoc]
      | cons item items =>
          rw [ReadsItems, ← ih (count + 1)]
          simp only [Doc.ofValues, ofItems, decodeValue]
          cases first.decode .memory (Doc.ofValue item) with
          | error fault => simp [bind, Except.bind]
          | ok found =>
              cases rest.ofItems .memory described true (count + 1) (Doc.ofValues items) with
              | error fault => simp [bind, Except.bind]
              | ok read => simp [bind, Except.bind, pure, Except.pure, Prod.ext_iff, and_assoc]

theorem decode_list_iff {γ σ : Type} {shape : Shape γ σ} {expected : String} {items : List Json}
    {values : γ} :
    decodeValue (shape.decode expected) (.list items) = .ok values ↔
      shape.ReadsItems values items := by
  rw [← ofItems_iff (expected ++ " with " ++ countText shape.size) 0, decodeValue, Doc.ofValue,
    decode]
  simp only [Origin.enter, bind, Except.bind]
  cases shape.ofItems .memory (expected ++ " with " ++ countText shape.size) true 0
      (Doc.ofValues items) with
  | error fault => simp
  | ok read =>
      obtain ⟨found, left⟩ := read
      cases left <;> simp [pure, Except.pure]

end Shape

end CrewCanvas.Json
