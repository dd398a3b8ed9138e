/-
Facts about lists.

Images of lists under functions that may fail, the entries behind keys, the one item of a key,
and joined texts.
-/

import Mathlib.Data.List.Forall2
import Mathlib.Data.List.Nodup

namespace CrewCanvas

theorem lookup_of_mem {α : Type} {fields : List (String × α)}
    (distinct : (fields.map Prod.fst).Nodup) {field : String × α} (member : field ∈ fields) :
    fields.lookup field.1 = some field.2 := by
  induction fields with
  | nil => cases member
  | cons first rest ih =>
      rw [List.map_cons, List.nodup_cons] at distinct
      rcases List.mem_cons.mp member with isFirst | later
      · rw [isFirst]
        exact List.lookup_cons_self
      · have different : field.1 ≠ first.1 := by
          intro same
          exact distinct.1 (same ▸ List.mem_map_of_mem later)
        rw [List.lookup_cons, beq_eq_false_iff_ne.mpr different]
        exact ih distinct.2 later

theorem mapM_map {α β γ : Type} {f : β → Option γ} {g : α → β} {h : α → γ} {items : List α}
    (each : ∀ item ∈ items, f (g item) = some (h item)) :
    (items.map g).mapM f = some (items.map h) := by
  induction items with
  | nil => rfl
  | cons item rest ih =>
      have others := ih (fun other member => each other (List.mem_cons_of_mem _ member))
      rw [List.map_cons, List.mapM_cons, each item List.mem_cons_self, others]
      rfl

theorem map_filterMap_eq {α β γ : Type} {f : α → Option β} {g : β → γ} {h : α → γ}
    {items : List α} (each : ∀ item ∈ items, (f item).map g = some (h item)) :
    (items.filterMap f).map g = items.map h := by
  rw [List.map_filterMap, ← List.filterMap_eq_map]
  exact List.filterMap_congr each

theorem forall₂_filterMap {α β : Type} {f : α → Option β} {R : α → β → Prop} {items : List α}
    (each : ∀ item ∈ items, ∃ image, f item = some image ∧ R item image) :
    List.Forall₂ R items (items.filterMap f) := by
  induction items with
  | nil => exact List.Forall₂.nil
  | cons item rest ih =>
      obtain ⟨image, found, related⟩ := each item List.mem_cons_self
      rw [List.filterMap_cons, found]
      exact List.Forall₂.cons related
        (ih (fun other member => each other (List.mem_cons_of_mem _ member)))

theorem map_eq_map_of_forall₂ {α β γ : Type} {R : α → β → Prop} {items : List α} {images : List β}
    (each : List.Forall₂ R items images) {f : α → γ} {g : β → γ}
    (same : ∀ item image, R item image → f item = g image) : items.map f = images.map g := by
  rw [← List.forall₂_eq_eq_eq, List.forall₂_map_left_iff, List.forall₂_map_right_iff]
  exact each.imp same

theorem forall₂_of_map_eq_map {α β γ : Type} {f : α → γ} {g : β → γ} {items : List α}
    {images : List β} (same : items.map f = images.map g) :
    List.Forall₂ (fun item image => f item = g image) items images := by
  rw [← List.forall₂_eq_eq_eq, List.forall₂_map_left_iff, List.forall₂_map_right_iff] at same
  exact same

theorem filterMap_eq_filterMap_of_forall₂ {α β γ : Type} {R : α → β → Prop} {items : List α}
    {images : List β} (each : List.Forall₂ R items images) {f : α → Option γ} {g : β → Option γ}
    (same : ∀ item image, R item image → f item = g image) :
    items.filterMap f = images.filterMap g := by
  induction each with
  | nil => rfl
  | cons related _ ih => rw [List.filterMap_cons, List.filterMap_cons, same _ _ related, ih]

/-- Items that have no image can be left out before. -/
theorem filterMap_filter_congr {α β : Type} {f g : α → Option β} {keep : α → Bool}
    {items : List α} (kept : ∀ item ∈ items, keep item = true → f item = g item)
    (dropped : ∀ item ∈ items, keep item = false → g item = none) :
    (items.filter keep).filterMap f = items.filterMap g := by
  rw [List.filterMap_filter]
  apply List.filterMap_congr
  intro item member
  cases keeps : keep item with
  | true => exact kept item member keeps
  | false => exact (dropped item member keeps).symm

theorem exists_forall₂ {α β : Type} {R : α → β → Prop} {items : List α}
    (each : ∀ item ∈ items, ∃ image, R item image) : ∃ images, List.Forall₂ R items images := by
  induction items with
  | nil => exact ⟨[], List.Forall₂.nil⟩
  | cons item rest ih =>
      obtain ⟨image, related⟩ := each item List.mem_cons_self
      obtain ⟨images, others⟩ := ih (fun other member => each other (List.mem_cons_of_mem _ member))
      exact ⟨image :: images, List.Forall₂.cons related others⟩

/-! ### The one item of a key -/

section OneOfKey

variable {α β : Type} {key : α → β} {front back : List α} {item : α}

theorem key_ne_of_others (others : key item ∉ (front ++ back).map key) {other : α}
    (among : other ∈ front ++ back) : key other ≠ key item := by
  intro same
  exact others (same ▸ List.mem_map_of_mem among)

theorem others_of_nodup {items : List α} (unique : (items.map key).Nodup)
    (parts : items = front ++ item :: back) : key item ∉ (front ++ back).map key := by
  rw [parts, List.map_append, List.map_cons, List.nodup_middle, List.nodup_cons,
    ← List.map_append] at unique
  exact unique.1

variable [DecidableEq β]

theorem find?_others (others : key item ∉ (front ++ back).map key) :
    (front ++ item :: back).find? (fun other => key other = key item) = some item := by
  rw [List.find?_eq_some_iff_append]
  refine ⟨by simp, front, back, rfl, ?_⟩
  intro other before
  simpa using key_ne_of_others others (List.mem_append_left back before)

theorem filter_others (others : key item ∉ (front ++ back).map key) :
    (front ++ item :: back).filter (fun other => key other ≠ key item) = front ++ back := by
  rw [List.filter_append, List.filter_cons_of_neg (by simp), ← List.filter_append,
    List.filter_eq_self]
  intro other among
  simpa using key_ne_of_others others among

theorem map_others {change : α → α} (others : key item ∉ (front ++ back).map key) :
    (front ++ item :: back).map
        (fun other => if key other = key item then change other else other) =
      front ++ change item :: back := by
  have kept {part : List α} (among : ∀ other ∈ part, other ∈ front ++ back) :
      part.map (fun other => if key other = key item then change other else other) = part := by
    refine (List.map_congr_left ?_).trans (List.map_id part)
    intro other member
    exact if_neg (key_ne_of_others others (among other member))
  rw [List.map_append, List.map_cons, if_pos rfl, kept (fun _ => List.mem_append_left back),
    kept (fun _ => List.mem_append_right front)]

end OneOfKey

/-! ### Joined texts -/

theorem length_le_flatMap {α β : Type} {write : α → List β} (items : List α)
    (filled : ∀ item, write item ≠ []) : items.length ≤ (items.flatMap write).length := by
  induction items with
  | nil => exact Nat.le_refl 0
  | cons item rest ih =>
      have first := List.length_pos_iff.mpr (filled item)
      rw [List.flatMap_cons, List.length_append, List.length_cons]
      omega

theorem mem_intercalate {separator : List Char} {texts : List (List Char)} {c : Char}
    (member : c ∈ separator.intercalate texts) : c ∈ separator ∨ ∃ text ∈ texts, c ∈ text := by
  induction texts with
  | nil => cases member
  | cons first rest ih =>
      cases rest with
      | nil =>
          rw [List.intercalate_singleton] at member
          exact Or.inr ⟨first, List.mem_cons_self, member⟩
      | cons second rest =>
          rw [List.intercalate_cons_cons, List.mem_append, List.mem_append] at member
          rcases member with (inFirst | inSeparator) | later
          · exact Or.inr ⟨first, List.mem_cons_self, inFirst⟩
          · exact Or.inl inSeparator
          · refine (ih later).imp_right ?_
            intro found
            obtain ⟨text, inRest, inText⟩ := found
            exact ⟨text, List.mem_cons_of_mem _ inRest, inText⟩

/-- Texts without the mark are joined with one mark less than there are texts. -/
theorem count_intercalate {mark : Char} {texts : List (List Char)} (filled : texts ≠ [])
    (unmarked : ∀ text ∈ texts, mark ∉ text) :
    ([mark].intercalate texts).count mark + 1 = texts.length := by
  induction texts with
  | nil => exact absurd rfl filled
  | cons first rest ih =>
      rw [List.forall_mem_cons] at unmarked
      have before := List.count_eq_zero_of_not_mem unmarked.1
      cases rest with
      | nil => rw [List.intercalate_singleton, before, List.length_singleton]
      | cons second rest =>
          have later := ih (List.cons_ne_nil second rest) unmarked.2
          rw [List.intercalate_cons_cons, List.count_append, List.count_append, before,
            List.count_singleton_self, List.length_cons, ← later]
          omega

end CrewCanvas
