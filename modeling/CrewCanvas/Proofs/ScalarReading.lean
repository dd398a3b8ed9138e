/-
Written texts are read back.

Each style has a reader, which gives a text and what follows it.  A quoted text ends at its
closing quote, a plain text at the end of its line, and a block in front of the first line that
is indented less than the block.
-/

import CrewCanvas.Yaml.Scalar
import Mathlib.Algebra.Group.Nat.Defs
import Mathlib.Data.List.Basic

namespace CrewCanvas.Yaml

/-! ### Readers -/

/-- Reads a text in single quotes behind its first quote.  At the start of a line spaces are
indentation. -/
def readSingle? : (atStart : Bool) → List Char → Option (List Char × List Char)
  | _, [] => none
  | _, '\'' :: '\'' :: rest => (readSingle? false rest).map (Prod.map ('\'' :: ·) id)
  | _, '\'' :: rest => some ([], rest)
  | atStart, c :: rest =>
      if atStart && isSpace c then readSingle? true rest
      else (readSingle? (isBreak c) rest).map (Prod.map (c :: ·) id)

def codeWidth? (letter : Char) : Option Nat :=
  if letter = 'x' then some 2
  else if letter = 'u' then some 4
  else if letter = 'U' then some 8
  else none

/-- Reads a text in double quotes behind its first quote.  Inside a code, `left` digits are
still to come, and those before them spell `code`. -/
def readDouble? : (left code : Nat) → List Char → Option (List Char × List Char)
  | _, _, [] => none
  | left + 1, code, digit :: rest => do
      let value ← Digits.hexValue? digit
      let code := 16 * code + value
      if left = 0 then (readDouble? 0 0 rest).map (Prod.map (Char.ofNat code :: ·) id)
      else readDouble? left code rest
  | 0, _, '"' :: rest => some ([], rest)
  | 0, _, '\\' :: letter :: rest =>
      match codeWidth? letter with
      | some width => readDouble? width 0 rest
      | none => do
          let entry ← escapeNames.find? (fun entry => entry.2 = letter)
          (readDouble? 0 0 rest).map (Prod.map (Char.ofNat entry.1 :: ·) id)
  | 0, _, c :: rest => (readDouble? 0 0 rest).map (Prod.map (c :: ·) id)

/-- Reads the lines of a block.  At the start of a line `left` spaces of its indentation are
still to come; inside a line there are none. -/
def readBlock (indent : Nat) : (left : Nat) → List Char → List Char × List Char
  | _, [] => ([], [])
  | left, c :: rest =>
      if isBreak c then Prod.map (c :: ·) id (readBlock indent indent rest)
      else
        match left with
        | 0 => Prod.map (c :: ·) id (readBlock indent 0 rest)
        | left + 1 =>
            if isSpace c then readBlock indent left rest
            else ([], spaces (indent - (left + 1)) ++ c :: rest)

/-- Reads a block behind its bar.  A dash in the header takes the last break away. -/
def readLiteral (indent : Nat) (input : List Char) : List Char × List Char :=
  let header := input.takeWhile (fun c => c != '\n')
  let lines := (input.dropWhile (fun c => c != '\n')).drop 1
  let read := readBlock indent indent lines
  if header.contains '-' then (read.1.dropLast, read.2) else read

def readPlain (input : List Char) : List Char × List Char :=
  (input.takeWhile (fun c => !isBreak c), input.dropWhile (fun c => !isBreak c))

def skip? (mark : List Char) (read : List Char × List Char) : Option (List Char × List Char) :=
  (mark.isPrefixOf? read.2).map (Prod.mk read.1)

def readScalar? (indent : Nat) : List Char → Option (List Char × List Char)
  | '\'' :: rest => (readSingle? false rest).bind (skip? ['\n'])
  | '"' :: rest => (readDouble? 0 0 rest).bind (skip? ['\n'])
  | '|' :: rest => some (readLiteral indent rest)
  | input => skip? ['\n'] (readPlain input)

/-! ### Starts of lines -/

/-- Whether a text ends at the start of a line, where it began as told. -/
def endsAtStart (atStart : Bool) (text : List Char) : Bool :=
  (text.getLast?.map isBreak).getD atStart

theorem endsAtStart_cons (atStart : Bool) (c : Char) (text : List Char) :
    endsAtStart atStart (c :: text) = endsAtStart (isBreak c) text := by
  cases text with
  | nil => rfl
  | cons d rest =>
      rw [endsAtStart, endsAtStart, List.getLast?_cons_cons, List.getLast?_cons,
        Option.map_some, Option.getD_some, Option.getD_some]

theorem endsAtStart_false (text : List Char) :
    endsAtStart false text = text.getLast?.any isBreak := by
  rw [endsAtStart]
  cases text.getLast? <;> rfl

theorem anyPair_cons (left right : Char → Bool) (c : Char) (text : List Char) :
    anyPair left right (c :: text) = ((left c && text.head?.any right) ||
      anyPair left right text) := by
  cases text with
  | nil => simp [anyPair]
  | cons d rest => rfl

/-! ### Single quotes -/

theorem readSingle?_spaces (count : Nat) (tail : List Char) :
    readSingle? true (spaces count ++ tail) = readSingle? true tail := by
  induction count with
  | zero => rfl
  | succ count ih =>
      rw [spaces, List.replicate_succ, List.cons_append, readSingle?]
      · exact ih
      · intro _ isQuote
        exact absurd isQuote (by decide)
      · intro isQuote
        exact absurd isQuote (by decide)

theorem readSingle?_shown {atStart : Bool} {c : Char} (shown : c ≠ '\'')
    (kept : (atStart && isSpace c) = false) (tail : List Char) :
    readSingle? atStart (c :: tail) =
      (readSingle? (isBreak c) tail).map (Prod.map (c :: ·) id) := by
  rw [readSingle?, kept]
  · rfl
  · intro _ isQuote
    exact absurd isQuote shown
  · exact shown

theorem readSingle?_doubleQuote {atStart : Bool} {c : Char}
    (kept : (atStart && isSpace c) = false) (tail : List Char) :
    readSingle? atStart (doubleQuote c ++ tail) =
      (readSingle? (isBreak c) tail).map (Prod.map (c :: ·) id) := by
  rw [doubleQuote]
  by_cases quote : c = '\''
  · subst quote
    rfl
  · rw [if_neg quote]
    exact readSingle?_shown quote kept tail

/-- No line of the text may start with a space, or its indentation would take the space along. -/
theorem readSingle?_indentLines (indent : Nat) {text : List Char} {atStart : Bool}
    (first : (atStart && text.head?.any isSpace) = false)
    (later : anyPair isBreak isSpace text = false) (tail : List Char) :
    readSingle? atStart (indentLines indent doubleQuote atStart text ++ tail) =
      (readSingle? (endsAtStart atStart text) tail).map (Prod.map (text ++ ·) id) := by
  induction text generalizing atStart with
  | nil =>
      change _ = Option.map id _
      rw [Option.map_id]
      rfl
  | cons c rest ih =>
      rw [anyPair_cons, Bool.or_eq_false_iff] at later
      have reads := ih later.1 later.2
      have joined : ∀ read : Option (List Char × List Char),
          (read.map (Prod.map (rest ++ ·) id)).map (Prod.map (c :: ·) id) =
            read.map (Prod.map (c :: rest ++ ·) id) := by
        intro read
        rw [Option.map_map]
        rfl
      rw [endsAtStart_cons, ← joined, ← reads, indentLines]
      cases breaks : isBreak c with
      | true =>
          have notQuote : c ≠ '\'' := by
            intro same
            exact absurd (same ▸ breaks) (by decide)
          rw [if_pos rfl, List.cons_append, readSingle?_shown notQuote first, breaks]
      | false =>
          rw [if_neg Bool.false_ne_true]
          cases atStart with
          | true =>
              rw [if_pos rfl, List.append_assoc, List.append_assoc, readSingle?_spaces,
                readSingle?_doubleQuote first, breaks]
          | false =>
              rw [if_neg Bool.false_ne_true, List.nil_append, List.append_assoc,
                readSingle?_doubleQuote first, breaks]

theorem readSingle?_singleQuoted (indent : Nat) {text : List Char}
    (allowed : allowsSingle text = true) {tail : List Char} (notQuote : tail.head? ≠ some '\'') :
    ∃ inside, singleQuoted indent text ++ tail = '\'' :: inside ∧
      readSingle? false inside = some (text, tail) := by
  simp only [allowsSingle, Bool.and_eq_true, Bool.not_eq_true'] at allowed
  have closed : ∀ atStart, readSingle? atStart ('\'' :: tail) = some ([], tail) := by
    intro atStart
    rw [readSingle?]
    intro rest same
    exact notQuote (same ▸ rfl)
  refine ⟨_, by rw [singleQuoted, List.cons_append, List.append_assoc, List.append_assoc], ?_⟩
  rw [readSingle?_indentLines indent (Bool.false_and _) allowed.2, endsAtStart_false]
  cases ends : text.getLast?.any isBreak with
  | true =>
      rw [if_pos rfl, readSingle?_spaces, List.singleton_append, closed, Option.map_some]
      exact congrArg some (congrArg (·, tail) (List.append_nil text))
  | false =>
      rw [if_neg Bool.false_ne_true, List.nil_append, List.singleton_append, closed,
        Option.map_some]
      exact congrArg some (congrArg (·, tail) (List.append_nil text))

/-! ### Double quotes -/

theorem hexValue?_hexUpper : ∀ digit, digit < 16 →
    Digits.hexValue? (hexUpper digit) = some digit := by decide

/-- A name of one letter stands for one code and begins no longer code. -/
theorem find?_escapeName : ∀ entry ∈ escapeNames, codeWidth? entry.2 = none ∧
    escapeNames.find? (fun other => other.2 = entry.2) = some entry := by decide

/-- A character is written as it is, by a name of one letter or by the digits of its code. -/
theorem escape_cases (c : Char) :
    (escape c = [c] ∧ c ≠ '"' ∧ c ≠ '\\') ∨
      (∃ entry ∈ escapeNames, escape c = ['\\', entry.2] ∧ entry.1 = c.toNat) ∨
      (∃ letter width, escape c = '\\' :: letter :: hexCode (width + 1) c.toNat ∧
        codeWidth? letter = some (width + 1) ∧ c.toNat < 16 ^ (width + 1)) := by
  unfold escape
  split
  · rename_i shown
    simp only [Bool.and_eq_true, bne_iff_ne] at shown
    exact Or.inl ⟨rfl, shown.1.2, shown.2⟩
  · dsimp only
    split
    · rename_i entry found
      have same := List.find?_some found
      exact Or.inr (Or.inl ⟨entry, List.mem_of_find?_eq_some found, rfl, of_decide_eq_true same⟩)
    · split
      · rename_i short
        exact Or.inr (Or.inr ⟨'x', 1, rfl, rfl, Nat.lt_succ_of_le short⟩)
      · split
        · rename_i medium
          exact Or.inr (Or.inr ⟨'u', 3, rfl, rfl, Nat.lt_succ_of_le medium⟩)
        · exact Or.inr (Or.inr ⟨'U', 7, rfl, rfl, c.val.toNat_lt⟩)

/-- The digits of a code in front of others are read into the code. -/
theorem readDouble?_hexCode (width left before code : Nat) (tail : List Char) :
    readDouble? (width + (left + 1)) before (hexCode width code ++ tail) =
      readDouble? (left + 1) (16 ^ width * before + code % 16 ^ width) tail := by
  induction width generalizing left code tail with
  | zero => simp [hexCode, Nat.mod_one]
  | succ width ih =>
      have value := hexValue?_hexUpper (code % 16) (Nat.mod_lt _ (by decide))
      have digits : 16 * (16 ^ width * before + code / 16 % 16 ^ width) + code % 16 =
          16 ^ (width + 1) * before + code % 16 ^ (width + 1) := by
        rw [Nat.pow_succ', Nat.mod_mul, Nat.mul_add, Nat.mul_assoc]
        omega
      rw [hexCode, List.append_assoc, List.singleton_append, Nat.add_right_comm, Nat.add_assoc, ih,
        readDouble?, value, Option.bind_eq_bind, Option.bind_some, if_neg (by omega), digits]

theorem readDouble?_code {letter : Char} {width code : Nat}
    (known : codeWidth? letter = some (width + 1)) (fits : code < 16 ^ (width + 1))
    (tail : List Char) :
    readDouble? 0 0 ('\\' :: letter :: (hexCode (width + 1) code ++ tail)) =
      (readDouble? 0 0 tail).map (Prod.map (Char.ofNat code :: ·) id) := by
  have value := hexValue?_hexUpper (code % 16) (Nat.mod_lt _ (by decide))
  have digits : 16 * (16 ^ width * 0 + code / 16 % 16 ^ width) + code % 16 = code := by
    rw [Nat.mod_eq_of_lt (Nat.div_lt_of_lt_mul (Nat.pow_succ' ▸ fits))]
    omega
  rw [readDouble?, known]
  dsimp only
  rw [hexCode, List.append_assoc, List.singleton_append]
  rw [readDouble?_hexCode width 0 0,
    readDouble?, value, Option.bind_eq_bind, Option.bind_some, if_pos rfl, digits]

theorem readDouble?_escape (c : Char) (tail : List Char) :
    readDouble? 0 0 (escape c ++ tail) =
      (readDouble? 0 0 tail).map (Prod.map (c :: ·) id) := by
  rcases escape_cases c with ⟨written, notQuote, notSlash⟩ | ⟨entry, listed, written, code⟩ |
    ⟨letter, width, written, known, fits⟩
  · rw [written, List.singleton_append, readDouble?]
    · exact notQuote
    · intro _ _ isSlash
      exact absurd isSlash notSlash
  · obtain ⟨noCode, found⟩ := find?_escapeName entry listed
    rw [written, List.cons_append, List.singleton_append, readDouble?, noCode]
    dsimp only
    rw [found, Option.bind_eq_bind, Option.bind_some, code, Char.ofNat_toNat]
  · have reads := readDouble?_code known fits tail
    rw [Char.ofNat_toNat] at reads
    rw [written]
    exact reads

theorem readDouble?_escaped (text tail : List Char) :
    readDouble? 0 0 (text.flatMap escape ++ '"' :: tail) = some (text, tail) := by
  induction text with
  | nil => rfl
  | cons c rest ih =>
      rw [List.flatMap_cons, List.append_assoc, readDouble?_escape, ih]
      rfl

/-! ### Blocks -/

theorem readBlock_spaces (indent count left : Nat) (tail : List Char) :
    readBlock indent (count + left) (spaces count ++ tail) = readBlock indent left tail := by
  induction count with
  | zero => rw [Nat.zero_add]; rfl
  | succ count ih =>
      rw [spaces, List.replicate_succ, List.cons_append, Nat.add_right_comm, readBlock]
      exact ih

theorem readBlock_break (indent : Nat) {left : Nat} {c : Char} (breaks : isBreak c = true)
    (tail : List Char) :
    readBlock indent left (c :: tail) = Prod.map (c :: ·) id (readBlock indent indent tail) := by
  cases left <;> rw [readBlock, if_pos breaks]

theorem readBlock_shown (indent : Nat) {c : Char} (shown : isBreak c = false) (tail : List Char) :
    readBlock indent 0 (c :: tail) = Prod.map (c :: ·) id (readBlock indent 0 tail) := by
  rw [readBlock, shown]
  rfl

theorem readBlock_indentLines (indent : Nat) (text : List Char) (atStart : Bool)
    (tail : List Char) :
    readBlock indent (if atStart then indent else 0)
        (indentLines indent (fun c => [c]) atStart text ++ tail) =
      Prod.map (text ++ ·) id
        (readBlock indent (if endsAtStart atStart text then indent else 0) tail) := by
  induction text generalizing atStart with
  | nil => rfl
  | cons c rest ih =>
      rw [endsAtStart_cons, indentLines]
      cases breaks : isBreak c with
      | true =>
          have reads := ih true
          rw [if_pos rfl] at reads
          rw [if_pos rfl, List.cons_append, readBlock_break indent breaks, reads]
          rfl
      | false =>
          have reads := ih false
          rw [if_neg Bool.false_ne_true] at reads
          have line : readBlock indent 0 (c :: (indentLines indent (fun c => [c]) false rest ++ tail)) =
              Prod.map (c :: rest ++ ·) id
                (readBlock indent (if endsAtStart false rest then indent else 0) tail) := by
            rw [readBlock_shown indent breaks, reads]
            rfl
          rw [if_neg Bool.false_ne_true, ← line]
          cases atStart with
          | true =>
              rw [if_pos rfl, if_pos rfl, List.append_assoc]
              exact readBlock_spaces indent indent 0 _
          | false => rfl

/-- What follows a block: nothing, or a line that is indented less. -/
def EndsBlock (indent : Nat) (tail : List Char) : Prop :=
  tail = [] ∨ ∃ count c rest, count < indent ∧ tail = spaces count ++ c :: rest ∧
    isBreak c = false ∧ isSpace c = false

theorem readBlock_end {indent : Nat} {tail : List Char} (ends : EndsBlock indent tail) :
    readBlock indent indent tail = ([], tail) := by
  rcases ends with same | ⟨count, c, rest, less, same, shown, filled⟩
  · subst same
    rfl
  · obtain ⟨left, sum⟩ := Nat.exists_eq_add_of_lt less
    have spent : indent - (left + 1) = count := by omega
    have reads := readBlock_spaces indent count (left + 1) (c :: rest)
    have stops : readBlock indent (left + 1) (c :: rest) = ([], tail) := by
      rw [readBlock, shown, filled, if_neg Bool.false_ne_true, if_neg Bool.false_ne_true, spent,
        same]
    rw [stops, ← Nat.add_assoc, ← sum, ← same] at reads
    exact reads

/-- A block that ends with a break has no dash in its header, any other has one. -/
theorem literalHeader_eq {text : List Char} (filled : text ≠ []) :
    ∃ marks, literalHeader text = '|' :: marks ∧ '\n' ∉ marks ∧
      marks.contains '-' = !(text.getLast?.any isBreak) := by
  refine ⟨_, rfl, ?_⟩
  rw [List.getLast?_eq_head?_reverse]
  generalize text.head?.any _ = starts
  cases reversed : text.reverse with
  | nil => exact absurd (List.reverse_eq_nil_iff.mp reversed) filled
  | cons last others =>
      rw [List.head?_cons, Option.any_some]
      cases others with
      | nil =>
          dsimp only
          cases starts <;> cases isBreak last <;> decide
      | cons before _ =>
          dsimp only
          cases starts <;> cases isBreak last <;> cases isBreak before <;> decide

theorem readLiteral_lines (indent : Nat) {marks : List Char} (unbroken : '\n' ∉ marks)
    (lines : List Char) :
    readLiteral indent (marks ++ '\n' :: lines) =
      if marks.contains '-' then
        ((readBlock indent indent lines).1.dropLast, (readBlock indent indent lines).2)
      else readBlock indent indent lines := by
  have inside : ∀ c ∈ marks, (c != '\n') = true := by
    intro c member
    exact bne_iff_ne.mpr (fun same => unbroken (same ▸ member))
  unfold readLiteral
  rw [List.takeWhile_append_of_pos inside, List.dropWhile_append_of_pos inside]
  rw [List.takeWhile_cons_of_neg (by decide), List.dropWhile_cons_of_neg (by decide),
    List.append_nil]
  rfl

theorem readLiteral_writeScalar {indent : Nat} {text tail : List Char}
    (allowed : allowsLiteral text = true) (ends : EndsBlock indent tail) :
    ∃ block, writeScalar indent .literal text ++ tail = '|' :: block ∧
      readLiteral indent block = (text, tail) := by
  have filled : text ≠ [] := by
    intro empty
    subst empty
    cases allowed
  obtain ⟨marks, header, unbroken, dash⟩ := literalHeader_eq filled
  have state : endsAtStart true text = text.getLast?.any isBreak := by
    rw [endsAtStart, List.getLast?_eq_some_getLast filled]
    rfl
  have lines := readBlock_indentLines indent text true
  rw [if_pos rfl, state] at lines
  dsimp only [writeScalar]
  rw [header, List.cons_append, List.cons_append, List.append_assoc, List.cons_append,
    List.append_assoc]
  refine ⟨_, rfl, ?_⟩
  rw [readLiteral_lines indent unbroken, dash, lines]
  cases broken : text.getLast?.any isBreak with
  | true =>
      rw [if_neg (by decide), if_pos rfl, if_pos rfl, List.nil_append, readBlock_end ends]
      exact congrArg (·, tail) (List.append_nil text)
  | false =>
      rw [if_pos (by decide), if_neg Bool.false_ne_true, if_neg Bool.false_ne_true,
        List.singleton_append, readBlock_break indent rfl, readBlock_end ends]
      exact congrArg (·, tail) List.dropLast_concat

/-! ### Plain texts -/

theorem holds_of_anyInside {holds : Char → Char → Option Char → Bool} {before after : List Char}
    {previous c : Char} (none : anyInside holds (before ++ previous :: c :: after) = false) :
    holds previous c after.head? = false := by
  induction before with
  | nil => exact (Bool.or_eq_false_iff.mp none).1
  | cons first before ih =>
      refine ih ?_
      cases before with
      | nil => exact (Bool.or_eq_false_iff.mp none).2
      | cons second before => exact (Bool.or_eq_false_iff.mp none).2

structure PlainText (text : List Char) : Prop where
  unbroken : ∀ c ∈ text, isBreak c = false
  lead : ∀ c rest, text = c :: rest → isSpace c = false ∧ c ∉ leadIndicators
  mark : ∀ rest, text = '?' :: rest → isGap rest.head? = false
  colon : ∀ before after, text = before ++ ':' :: after → isGap after.head? = false

theorem plainText_of_allowsPlain {text : List Char} (allowed : allowsPlain text = true) :
    PlainText text := by
  simp only [allowsPlain, hasIndicators, startsOrEnds, Bool.and_eq_true, Bool.not_eq_true',
    Bool.or_eq_false_iff] at allowed
  obtain ⟨⟨⟨_, breaks⟩, starts, _⟩, ⟨_, first⟩, later⟩ := allowed
  have firstOf : ∀ c rest, text = c :: rest → indicatesFirst c rest.head? = false := by
    intro c rest same
    subst same
    exact first
  constructor
  case unbroken => simpa using breaks
  case lead =>
    intro c rest same
    have indicates := firstOf c rest same
    subst same
    simp only [indicatesFirst, Bool.or_eq_false_iff] at indicates
    exact ⟨starts, by simpa using indicates.1⟩
  case mark =>
    intro rest same
    simpa [indicatesFirst, leadIndicators] using firstOf '?' rest same
  case colon =>
    intro before after same
    rcases List.eq_nil_or_concat before with empty | ⟨front, previous, parts⟩
    · subst empty
      simpa [indicatesFirst, leadIndicators] using firstOf ':' after same
    · rw [same, parts, List.concat_eq_append, List.append_assoc] at later
      simpa [indicatesLater] using holds_of_anyInside later

/-- No indicator comes first either where an unmarked text stands in front of one. -/
theorem PlainText.lead_append {text tail : List Char} (plain : PlainText text)
    (shown : ∀ c rest, tail = c :: rest → c ∉ leadIndicators) {c : Char} {rest : List Char}
    (same : text ++ tail = c :: rest) : c ∉ leadIndicators := by
  cases text with
  | nil => exact shown c rest same
  | cons _ _ =>
      cases same
      exact (plain.lead _ _ rfl).2

theorem readPlain_line {text : List Char} (unbroken : ∀ c ∈ text, isBreak c = false)
    (tail : List Char) : readPlain (text ++ '\n' :: tail) = (text, '\n' :: tail) := by
  have inside : ∀ c ∈ text, (!isBreak c) = true := by
    intro c member
    rw [unbroken c member]
    rfl
  rw [readPlain, List.takeWhile_append_of_pos inside, List.dropWhile_append_of_pos inside,
    List.takeWhile_cons_of_neg (by decide), List.dropWhile_cons_of_neg (by decide),
    List.append_nil]

/-! ### All styles -/

def Style.Allows (text : List Char) : Style → Prop
  | plain => allowsPlain text = true
  | singleQuoted => allowsSingle text = true
  | doubleQuoted => True
  | literal => allowsLiteral text = true

/-- The style that is chosen for a text can hold it. -/
theorem style_allows (asKey : Bool) (text : String) :
    (style asKey text).Allows text.toList := by
  unfold style
  dsimp only
  split
  · trivial
  · split
    · trivial
    · rename_i kept
      simp only [Bool.or_eq_true, Bool.not_eq_true', not_or, Bool.not_eq_false] at kept
      exact kept.2
  · split
    · assumption
    · split
      · assumption
      · trivial
  · split
    · assumption
    · trivial

theorem skip?_mark (text mark tail : List Char) :
    skip? mark (text, mark ++ tail) = some (text, tail) := by
  rw [skip?, List.isPrefixOf?_eq_some_iff_append_eq.mpr rfl]
  rfl

theorem readScalar?_plain (indent : Nat) {input : List Char}
    (lead : ∀ c rest, input = c :: rest → c ∉ leadIndicators) :
    readScalar? indent input = skip? ['\n'] (readPlain input) := by
  rw [readScalar?]
  · intro rest same
    exact lead _ rest same (by decide)
  · intro rest same
    exact lead _ rest same (by decide)
  · intro rest same
    exact lead _ rest same (by decide)

theorem readScalar?_writeScalar {indent : Nat} {style : Style} {text tail : List Char}
    (allowed : style.Allows text) (ends : EndsBlock indent tail) :
    readScalar? indent (writeScalar indent style text ++ tail) = some (text, tail) := by
  cases style with
  | plain =>
      have plain := plainText_of_allowsPlain allowed
      have lineBreak : ∀ c rest, '\n' :: tail = c :: rest → c ∉ leadIndicators := by
        intro c rest same
        cases same
        decide
      rw [writeScalar, List.append_assoc, List.singleton_append,
        readScalar?_plain indent (fun _ _ => plain.lead_append lineBreak),
        readPlain_line plain.unbroken]
      exact skip?_mark text ['\n'] tail
  | singleQuoted =>
      have notQuote : ('\n' :: tail).head? ≠ some '\'' := by simp
      obtain ⟨inside, written, reads⟩ := readSingle?_singleQuoted indent allowed notQuote
      rw [writeScalar, List.append_assoc, List.singleton_append, written, readScalar?, reads]
      exact skip?_mark text ['\n'] tail
  | doubleQuoted =>
      have reads := readDouble?_escaped text ('\n' :: tail)
      rw [writeScalar, List.cons_append, List.append_assoc, readScalar?]
      change (readDouble? 0 0 (text.flatMap escape ++ '"' :: '\n' :: tail)).bind _ = _
      rw [reads]
      exact skip?_mark text ['\n'] tail
  | literal =>
      obtain ⟨block, written, reads⟩ := readLiteral_writeScalar allowed ends
      rw [written, readScalar?, reads]

end CrewCanvas.Yaml
