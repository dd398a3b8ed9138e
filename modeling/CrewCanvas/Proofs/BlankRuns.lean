/-
Runs of blanks in names.

A sanitized name has one underscore in place of each run of blanks, as long as the run is, and
all its other characters in their order.  So it has no blank and is sanitized to itself, and a
name in two parts is sanitized part by part, unless a run goes on from one part to the other.
-/

import CrewCanvas.Text.Blank
import Mathlib.Data.List.Induction

namespace CrewCanvas.Text

def StartsBlank (text : List Char) : Prop := text.head?.any isBlank = true

def EndsBlank (text : List Char) : Prop := text.getLast?.any isBlank = true

instance (text : List Char) : Decidable (StartsBlank text) :=
  inferInstanceAs (Decidable (_ = true))

instance (text : List Char) : Decidable (EndsBlank text) :=
  inferInstanceAs (Decidable (_ = true))

/-- The second text is the first one with an underscore in place of each run of blanks.  No
blank follows a run, and a character that is kept is none, so the runs are as long as they can
be. -/
inductive Underscored : List Char → List Char → Prop
  | nil : Underscored [] []
  | run {run rest result : List Char} (filled : run ≠ [])
      (blank : ∀ c ∈ run, isBlank c = true) (ends : ¬StartsBlank rest)
      (others : Underscored rest result) : Underscored (run ++ rest) ('_' :: result)
  | kept {c : Char} {rest result : List Char} (shown : isBlank c = false)
      (others : Underscored rest result) : Underscored (c :: rest) (c :: result)

/-! ### Inside and outside of a run -/

theorem underscoreRuns_shown {c : Char} (shown : isBlank c = false) (inside : Bool)
    (rest : List Char) : underscoreRuns inside (c :: rest) = c :: underscoreRuns false rest := by
  rw [underscoreRuns, if_neg (by simp [shown])]

theorem underscoreRuns_enter {c : Char} (blank : isBlank c = true) (rest : List Char) :
    underscoreRuns false (c :: rest) = '_' :: underscoreRuns true rest := by
  rw [underscoreRuns, if_pos blank, if_neg Bool.false_ne_true]

theorem underscoreRuns_stay {c : Char} (blank : isBlank c = true) (rest : List Char) :
    underscoreRuns true (c :: rest) = underscoreRuns true rest := by
  rw [underscoreRuns, if_pos blank, if_pos rfl]

theorem underscoreRuns_blanks {run : List Char} (blank : ∀ c ∈ run, isBlank c = true)
    (rest : List Char) : underscoreRuns true (run ++ rest) = underscoreRuns true rest := by
  induction run with
  | nil => rfl
  | cons c run ih =>
      rw [List.forall_mem_cons] at blank
      rw [List.cons_append, underscoreRuns_stay blank.1, ih blank.2]

theorem underscoreRuns_left {text : List Char} (ends : ¬StartsBlank text) :
    underscoreRuns true text = underscoreRuns false text := by
  cases text with
  | nil => rfl
  | cons c rest =>
      have shown : isBlank c = false := by simpa [StartsBlank] using ends
      rw [underscoreRuns_shown shown, underscoreRuns_shown shown]

theorem underscoreRuns_startsBlank {text : List Char} (starts : StartsBlank text) :
    underscoreRuns false text = '_' :: underscoreRuns true text := by
  cases text with
  | nil => simp [StartsBlank] at starts
  | cons c rest =>
      have blank : isBlank c = true := by simpa [StartsBlank] using starts
      rw [underscoreRuns_enter blank, underscoreRuns_stay blank]

theorem isBlank_of_mem_underscoreRuns {inside : Bool} {text : List Char} {c : Char}
    (member : c ∈ underscoreRuns inside text) : isBlank c = false := by
  induction text generalizing inside with
  | nil => cases member
  | cons first rest ih =>
      rw [underscoreRuns] at member
      split at member
      · split at member
        · exact ih member
        · rcases List.mem_cons.mp member with isUnderscore | later
          · exact isUnderscore ▸ isBlank_underscore
          · exact ih later
      · rename_i shown
        rcases List.mem_cons.mp member with isFirst | later
        · rw [isFirst]
          exact Bool.eq_false_iff.mpr shown
        · exact ih later

theorem underscoreRuns_of_unblank {text : List Char}
    (unblank : ∀ c ∈ text, isBlank c = false) (inside : Bool) :
    underscoreRuns inside text = text := by
  induction text generalizing inside with
  | nil => rfl
  | cons c rest ih =>
      rw [List.forall_mem_cons] at unblank
      rw [underscoreRuns_shown unblank.1, ih unblank.2]

theorem underscoreRuns_of_noMark {text : List Char}
    (noMark : '_' ∉ underscoreRuns false text) : underscoreRuns false text = text := by
  induction text with
  | nil => rfl
  | cons c rest ih =>
      cases blank : isBlank c with
      | true =>
          rw [underscoreRuns_enter blank] at noMark
          exact absurd List.mem_cons_self noMark
      | false =>
          rw [underscoreRuns_shown blank] at noMark ⊢
          rw [ih (fun inRest => noMark (List.mem_cons_of_mem c inRest))]

/-! ### Whole runs -/

/-- Outside of a run all of the text is replaced.  Inside of one, what is left of the run is passed
over first. -/
theorem underscored_underscoreRuns (text : List Char) :
    Underscored text (underscoreRuns false text) ∧
      ∃ run rest, text = run ++ rest ∧ (∀ c ∈ run, isBlank c = true) ∧ ¬StartsBlank rest ∧
        Underscored rest (underscoreRuns true text) := by
  induction text with
  | nil =>
      have ends : ¬StartsBlank [] := by decide
      exact ⟨Underscored.nil, [], [], rfl, by simp, ends, Underscored.nil⟩
  | cons c text ih =>
      obtain ⟨outside, run, rest, parts, blanks, ends, others⟩ := ih
      cases blank : isBlank c with
      | true =>
          have all : ∀ other ∈ c :: run, isBlank other = true :=
            List.forall_mem_cons.mpr ⟨blank, blanks⟩
          have whole : c :: text = (c :: run) ++ rest := by rw [parts, List.cons_append]
          constructor
          · rw [underscoreRuns_enter blank, whole]
            exact Underscored.run (List.cons_ne_nil c run) all ends others
          · rw [underscoreRuns_stay blank]
            exact ⟨c :: run, rest, whole, all, ends, others⟩
      | false =>
          have kept := Underscored.kept blank outside
          have ends : ¬StartsBlank (c :: text) := by simp [StartsBlank, blank]
          rw [underscoreRuns_shown blank, underscoreRuns_shown blank]
          exact ⟨kept, [], c :: text, rfl, by simp, ends, kept⟩

theorem underscoreRuns_of_underscored {text result : List Char}
    (replaced : Underscored text result) : underscoreRuns false text = result := by
  induction replaced with
  | nil => rfl
  | run filled blank ends others ih =>
      rename_i run rest result
      obtain ⟨c, run, rfl⟩ := List.exists_cons_of_ne_nil filled
      rw [List.forall_mem_cons] at blank
      rw [List.cons_append, underscoreRuns_enter blank.1, underscoreRuns_blanks blank.2,
        underscoreRuns_left ends, ih]
  | kept shown others ih => rw [underscoreRuns_shown shown, ih]

theorem underscored_iff {text result : List Char} :
    Underscored text result ↔ result = underscoreRuns false text := by
  constructor
  · intro replaced
    exact (underscoreRuns_of_underscored replaced).symm
  · intro same
    exact same ▸ (underscored_underscoreRuns text).1

theorem underscoreRuns_eq_nil_iff {text : List Char} :
    underscoreRuns false text = [] ↔ text = [] := by
  constructor
  · intro empty
    cases (underscored_iff.mpr empty.symm) with
    | nil => rfl
  · intro empty
    rw [empty, underscoreRuns]

/-! ### Two parts -/

/-- Whether a run goes on behind a text that was begun inside of a run or outside. -/
def insideAfter (inside : Bool) (text : List Char) : Bool :=
  (text.getLast?.map isBlank).getD inside

theorem insideAfter_cons (inside : Bool) (c : Char) (rest : List Char) :
    insideAfter inside (c :: rest) = insideAfter (isBlank c) rest := by
  rw [insideAfter, insideAfter, List.getLast?_cons]
  cases rest.getLast? <;> rfl

theorem insideAfter_eq_true_iff {text : List Char} :
    insideAfter false text = true ↔ EndsBlank text := by
  rw [insideAfter, EndsBlank]
  cases text.getLast? <;> simp

theorem underscoreRuns_append (inside : Bool) (text other : List Char) :
    underscoreRuns inside (text ++ other) =
      underscoreRuns inside text ++ underscoreRuns (insideAfter inside text) other := by
  induction text generalizing inside with
  | nil => rfl
  | cons c rest ih =>
      rw [List.cons_append, insideAfter_cons, underscoreRuns, underscoreRuns, ih, ih]
      cases isBlank c <;> cases inside <;> rfl

theorem underscoreRuns_append_apart {text other : List Char}
    (apart : ¬(EndsBlank text ∧ StartsBlank other)) :
    underscoreRuns false (text ++ other) =
      underscoreRuns false text ++ underscoreRuns false other := by
  rw [underscoreRuns_append]
  cases after : insideAfter false text with
  | false => rfl
  | true =>
      have ends := insideAfter_eq_true_iff.mp after
      rw [underscoreRuns_left (fun starts => apart ⟨ends, starts⟩)]

theorem underscoreRuns_endsBlank {text : List Char} (ends : EndsBlank text) :
    ∃ front, underscoreRuns false text = front ++ ['_'] := by
  -- The last blank has the underscore of its run, which an earlier blank may have got already.
  induction text using List.reverseRecOn with
  | nil => simp [EndsBlank] at ends
  | append_singleton text c ih =>
      have blank : isBlank c = true := by simpa [EndsBlank] using ends
      rw [underscoreRuns_append]
      cases after : insideAfter false text with
      | true =>
          rw [underscoreRuns_stay blank, underscoreRuns, List.append_nil]
          exact ih (insideAfter_eq_true_iff.mp after)
      | false => exact ⟨_, by rw [underscoreRuns_enter blank, underscoreRuns]⟩

/-! ### Sanitized names -/

structure UnderscoresRuns (name : String) : Prop where
  runs : ∀ result, Underscored name.toList result ↔ result = (sanitize name).toList
  unblank : ∀ c ∈ (sanitize name).toList, isBlank c = false
  empty_iff : sanitize name = "" ↔ name = ""
  again : sanitize (sanitize name) = sanitize name
  apart : ∀ other : String, ¬(EndsBlank name.toList ∧ StartsBlank other.toList) →
    sanitize (name ++ other) = sanitize name ++ sanitize other
  /-- Where a run goes on from one part to the other, both parts have an underscore for it and
  the whole has one. -/
  joined : ∀ other : String, EndsBlank name.toList → StartsBlank other.toList →
    ∃ front back, sanitize name = front ++ "_" ∧ sanitize other = "_" ++ back ∧
      sanitize (name ++ other) = front ++ "_" ++ back

theorem sanitize_underscoresRuns (name : String) : UnderscoresRuns name where
  runs := by
    intro result
    rw [toList_sanitize]
    exact underscored_iff
  unblank := by
    intro c member
    rw [toList_sanitize] at member
    exact isBlank_of_mem_underscoreRuns member
  empty_iff := by
    rw [← String.toList_inj, ← String.toList_inj, toList_sanitize]
    exact underscoreRuns_eq_nil_iff
  again := by
    have unblank : ∀ c ∈ underscoreRuns false name.toList, isBlank c = false :=
      fun _ => isBlank_of_mem_underscoreRuns
    rw [← String.toList_inj, toList_sanitize, toList_sanitize, underscoreRuns_of_unblank unblank]
  apart := by
    intro other apart
    rw [← String.toList_inj, String.toList_append, toList_sanitize, toList_sanitize,
      toList_sanitize, String.toList_append, underscoreRuns_append_apart apart]
  joined := by
    intro other ends starts
    obtain ⟨front, isFront⟩ := underscoreRuns_endsBlank ends
    have onward := insideAfter_eq_true_iff.mpr ends
    refine ⟨String.ofList front, String.ofList (underscoreRuns true other.toList), ?_, ?_, ?_⟩
    · rw [← String.toList_inj]
      simp [isFront]
    · rw [← String.toList_inj]
      simp [underscoreRuns_startsBlank starts]
    · rw [← String.toList_inj]
      simp [underscoreRuns_append, onward, isFront]

end CrewCanvas.Text
