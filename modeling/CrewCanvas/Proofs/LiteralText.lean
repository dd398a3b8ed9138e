/-
Quoted literals read back.

A reader undoes the escapes of a literal: a backslash with a letter, a quote, a backslash or
two hexadecimal digits.  Every other character but a quote, a backslash and the end of a line
stands for itself.  A written literal is read as its text and ends at its last quote, so no two
texts have the same literal.
-/

import CrewCanvas.Artifact.Literal
import CrewCanvas.Number.Digits

namespace CrewCanvas.Literal

def shortEscape? (c : Char) : Option Char :=
  if c = '\\' then some '\\'
  else if c = '\'' then some '\''
  else if c = 'n' then some '\n'
  else if c = 'r' then some '\r'
  else if c = 't' then some '\t'
  else none

def readBody? : List Char → Option (List Char)
  | [] => none
  | '\'' :: rest => if rest.isEmpty then some [] else none
  | '\\' :: 'x' :: high :: low :: rest => do
      let high ← Digits.hexValue? high
      let low ← Digits.hexValue? low
      (readBody? rest).map (Char.ofNat (16 * high + low) :: ·)
  | '\\' :: letter :: rest => do
      let c ← shortEscape? letter
      (readBody? rest).map (c :: ·)
  | c :: rest =>
      if c = '\\' ∨ c = '\n' ∨ c = '\r' then none else (readBody? rest).map (c :: ·)

def read? : List Char → Option (List Char)
  | '\'' :: rest => readBody? rest
  | _ => none

/-! ### Escapes -/

/-- A character is escaped by a letter or by its code, or it is written as it is. -/
theorem escape_cases (c : Char) :
    (∃ letter, escape c = ['\\', letter] ∧ shortEscape? letter = some c ∧ letter ≠ 'x' ∧
        isControl letter = false) ∨
      (escape c = ['\\', 'x', Nat.digitChar (c.toNat / 16), Nat.digitChar (c.toNat % 16)] ∧
        isControl c = true) ∨
      (escape c = [c] ∧ c ≠ '\\' ∧ c ≠ '\'' ∧ isControl c = false) := by
  unfold escape
  by_cases slash : c = '\\'
  · subst slash
    exact Or.inl ⟨'\\', by decide⟩
  by_cases quote : c = '\''
  · subst quote
    exact Or.inl ⟨'\'', by decide⟩
  by_cases lineBreak : c = '\n'
  · subst lineBreak
    exact Or.inl ⟨'n', by decide⟩
  by_cases carriage : c = '\r'
  · subst carriage
    exact Or.inl ⟨'r', by decide⟩
  by_cases tab : c = '\t'
  · subst tab
    exact Or.inl ⟨'t', by decide⟩
  rw [if_neg slash, if_neg quote, if_neg lineBreak, if_neg carriage, if_neg tab]
  cases control : isControl c with
  | true => exact Or.inr (Or.inl ⟨rfl, rfl⟩)
  | false => exact Or.inr (Or.inr ⟨rfl, slash, quote, rfl⟩)

theorem toNat_lt_of_isControl {c : Char} (control : isControl c = true) : c.toNat < 256 := by
  simp only [isControl, Bool.or_eq_true, Bool.and_eq_true, decide_eq_true_eq] at control
  omega

theorem isControl_digitChar : ∀ digit, digit < 16 →
    isControl (Nat.digitChar digit) = false := by decide

theorem isControl_of_mem_escape {c other : Char} (member : other ∈ escape c) :
    isControl other = false := by
  have slash : isControl '\\' = false := by decide
  have mark : isControl 'x' = false := by decide
  rcases escape_cases c with ⟨letter, written, _, _, shown⟩ | ⟨written, control⟩ |
    ⟨written, _, _, shown⟩
  · rw [written] at member
    simp only [List.mem_cons, List.not_mem_nil, or_false] at member
    rcases member with same | same
    · exact same ▸ slash
    · exact same ▸ shown
  · have low := toNat_lt_of_isControl control
    have high := isControl_digitChar (c.toNat / 16) (by omega)
    have last := isControl_digitChar (c.toNat % 16) (by omega)
    rw [written] at member
    simp only [List.mem_cons, List.not_mem_nil, or_false] at member
    rcases member with same | same | same | same
    · exact same ▸ slash
    · exact same ▸ mark
    · exact same ▸ high
    · exact same ▸ last
  · rw [written] at member
    exact List.mem_singleton.mp member ▸ shown

/-- A literal holds no control character, so it stays on its line. -/
theorem isControl_of_mem_write {text : List Char} {c : Char} (member : c ∈ write text) :
    isControl c = false := by
  have quote : isControl '\'' = false := by decide
  rcases List.mem_cons.mp member with isQuote | inside
  · exact isQuote ▸ quote
  · rcases List.mem_append.mp inside with escaped | isQuote
    · obtain ⟨source, _, written⟩ := List.mem_flatMap.mp escaped
      exact isControl_of_mem_escape written
    · exact List.mem_singleton.mp isQuote ▸ quote

/-! ### Reading -/

theorem readBody?_short {c letter : Char} (short : shortEscape? letter = some c)
    (notHex : letter ≠ 'x') (rest : List Char) :
    readBody? ('\\' :: letter :: rest) = (readBody? rest).map (c :: ·) := by
  rw [readBody?, short]
  · rfl
  · intro _ _ _ isHex
    exact absurd isHex notHex

theorem readBody?_hex {value : Nat} (low : value < 256) (rest : List Char) :
    readBody? ('\\' :: 'x' :: Nat.digitChar (value / 16) :: Nat.digitChar (value % 16) :: rest) =
      (readBody? rest).map (Char.ofNat value :: ·) := by
  have sum : 16 * (value / 16) + value % 16 = value := by omega
  rw [readBody?, Digits.hexValue?_digitChar (value / 16) (by omega),
    Digits.hexValue?_digitChar (value % 16) (by omega)]
  simp only [Option.bind_eq_bind, Option.bind_some, sum]

theorem readBody?_plain {c : Char} (notSlash : c ≠ '\\') (notQuote : c ≠ '\'')
    (shown : isControl c = false) (rest : List Char) :
    readBody? (c :: rest) = (readBody? rest).map (c :: ·) := by
  have notBreak : c ≠ '\n' ∧ c ≠ '\r' := by
    constructor
    · intro same
      exact absurd (same ▸ shown) (by decide)
    · intro same
      exact absurd (same ▸ shown) (by decide)
  rw [readBody?, if_neg (by simp [notSlash, notBreak])]
  · exact notQuote
  · intro _ _ _ isSlash
    exact absurd isSlash notSlash
  · intro _ _ isSlash
    exact absurd isSlash notSlash

theorem readBody?_escape (c : Char) (rest : List Char) :
    readBody? (escape c ++ rest) = (readBody? rest).map (c :: ·) := by
  rcases escape_cases c with ⟨letter, written, short, notHex, _⟩ | ⟨written, control⟩ |
    ⟨written, notSlash, notQuote, shown⟩
  · rw [written]
    exact readBody?_short short notHex rest
  · have hex := readBody?_hex (toNat_lt_of_isControl control) rest
    rw [Char.ofNat_toNat] at hex
    rw [written]
    exact hex
  · rw [written]
    exact readBody?_plain notSlash notQuote shown rest

/-- A written literal is read as its text. -/
theorem read?_write (text : List Char) : read? (write text) = some text := by
  have body : readBody? (text.flatMap escape ++ ['\'']) = some text := by
    induction text with
    | nil => rfl
    | cons c rest ih =>
        rw [List.flatMap_cons, List.append_assoc, readBody?_escape, ih]
        rfl
  exact body

/-! ### Quotes -/

/-- The places of the quotes that no backslash escapes.  A backslash takes the character behind
it along, also if that is a backslash. -/
def bareQuotes (place : Nat) : List Char → List Nat
  | [] => []
  | '\\' :: _ :: rest => bareQuotes (place + 2) rest
  | c :: rest =>
      if c = '\'' then place :: bareQuotes (place + 1) rest else bareQuotes (place + 1) rest

theorem bareQuotes_plain {c : Char} (notSlash : c ≠ '\\') (notQuote : c ≠ '\'') (place : Nat)
    (rest : List Char) : bareQuotes place (c :: rest) = bareQuotes (place + 1) rest := by
  rw [bareQuotes, if_neg notQuote]
  intro _ _ isSlash
  exact absurd isSlash notSlash

theorem digitChar_plain : ∀ digit, digit < 16 →
    Nat.digitChar digit ≠ '\\' ∧ Nat.digitChar digit ≠ '\'' := by decide

/-- No quote that a character is written with ends the literal. -/
theorem bareQuotes_escape (c : Char) (place : Nat) (rest : List Char) :
    bareQuotes place (escape c ++ rest) = bareQuotes (place + (escape c).length) rest := by
  rcases escape_cases c with ⟨letter, written, _, _, _⟩ | ⟨written, control⟩ |
    ⟨written, notSlash, notQuote, _⟩
  · rw [written]
    rfl
  · have low := toNat_lt_of_isControl control
    have high := digitChar_plain (c.toNat / 16) (by omega)
    have last := digitChar_plain (c.toNat % 16) (by omega)
    rw [written, List.cons_append, List.cons_append, List.cons_append, List.cons_append,
      List.nil_append, bareQuotes, bareQuotes_plain high.1 high.2,
      bareQuotes_plain last.1 last.2]
    rfl
  · rw [written]
    exact bareQuotes_plain notSlash notQuote place rest

theorem bareQuotes_body (text : List Char) (place : Nat) (rest : List Char) :
    bareQuotes place (text.flatMap escape ++ rest) =
      bareQuotes (place + (text.flatMap escape).length) rest := by
  induction text generalizing place with
  | nil => rfl
  | cons c text ih =>
      rw [List.flatMap_cons, List.append_assoc, bareQuotes_escape, ih, List.length_append,
        Nat.add_assoc]

theorem bareQuotes_write (text : List Char) :
    bareQuotes 0 (write text) = [0, (write text).length - 1] := by
  have body := bareQuotes_body text 1 ['\'']
  rw [write, bareQuotes, if_pos rfl, Nat.zero_add, body, bareQuotes, if_pos rfl, bareQuotes]
  · simp [Nat.add_comm]
  · simp
  · simp

/-! ### Literals of texts -/

structure Denotes (literal text : String) : Prop where
  shown : ∀ c ∈ literal.toList, isControl c = false
  quotes : bareQuotes 0 literal.toList = [0, literal.length - 1]
  reads : read? literal.toList = some text.toList

theorem toList_ofText (text : String) : (ofText text).toList = write text.toList := by
  rw [ofText, String.toList_ofList]

theorem ofText_denotes (text : String) : Denotes (ofText text) text where
  shown := by
    intro c member
    rw [toList_ofText] at member
    exact isControl_of_mem_write member
  quotes := by
    rw [← String.length_toList, toList_ofText]
    exact bareQuotes_write text.toList
  reads := by
    rw [toList_ofText]
    exact read?_write text.toList

theorem ofText_denotes_injectively :
    (∀ text, Denotes (ofText text) text) ∧ Function.Injective ofText := by
  refine ⟨ofText_denotes, ?_⟩
  intro text other same
  have reads := (ofText_denotes text).reads
  rw [same, (ofText_denotes other).reads] at reads
  exact (String.toList_inj.mp (Option.some.inj reads)).symm

/-- A digit behind a code is none of the code. -/
example : ofText "\x07f'" = "'\\x07f\\''" := by decide

end CrewCanvas.Literal
