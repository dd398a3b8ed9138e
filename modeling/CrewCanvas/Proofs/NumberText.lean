/-
Numbers in front of a text.

A number that is read up to the end of a text is also read where the text goes on, unless it
goes on with a digit, a point or an exponent.  What is written for a binary64 number keeps
its point or its exponent, so that it is never read as an integer.
-/

import CrewCanvas.Proofs.TokenText
import CrewCanvas.Json.Shape
import Mathlib.Data.List.TakeWhile

namespace CrewCanvas

namespace Json

namespace Token

def EndsNumber (rest : List Char) : Prop :=
  ∀ c, rest.head? = some c → c.isDigit = false ∧ c ∉ ['.', 'e', 'E']

theorem endsNumber_nil : EndsNumber [] := by
  intro c head
  cases head

theorem exponentSign_cons_append (c : Char) (input rest : List Char) :
    exponentSign (c :: (input ++ rest)) =
      ((exponentSign (c :: input)).1, (exponentSign (c :: input)).2 ++ rest) := by
  unfold exponentSign
  split <;> simp_all

theorem minusSign_cons_append (c : Char) (input rest : List Char) :
    minusSign (c :: (input ++ rest)) =
      ((minusSign (c :: input)).1, (minusSign (c :: input)).2 ++ rest) := by
  unfold minusSign
  split <;> simp_all

section Append

variable {rest : List Char} (ends : EndsNumber rest)
include ends

theorem digits_append (input : List Char) :
    digits (input ++ rest) = ((digits input).1, (digits input).2 ++ rest) := by
  induction input with
  | nil =>
      cases rest with
      | nil => rfl
      | cons c rest => simp [digits, (ends c rfl).1]
  | cons c input ih =>
      simp only [digits, Prod.mk.injEq] at ih ⊢
      cases digit : c.isDigit with
      | false => simp [digit]
      | true => simp [digit, ih.1, ih.2]

theorem whole?_append {input whole left : List Char} (read : whole? input = some (whole, left)) :
    whole? (input ++ rest) = some (whole, left ++ rest) := by
  unfold whole? at read ⊢
  rw [digits_append ends]
  generalize digits input = found at read ⊢
  obtain ⟨taken, others⟩ := found
  cases taken with
  | nil => cases read
  | cons first more =>
      cases more with
      | nil =>
          cases read
          rfl
      | cons second more =>
          simp only at read ⊢
          split at read
          · cases read
          · rename_i noZero
            cases read
            rw [if_neg noZero]

theorem fraction?_append {input left : List Char} {fraction : Option (List Char)}
    (read : fraction? input = some (fraction, left)) :
    fraction? (input ++ rest) = some (fraction, left ++ rest) := by
  cases input with
  | nil =>
      cases read
      cases rest with
      | nil => rfl
      | cons c rest =>
          have noPoint : c ≠ '.' := by
            intro point
            exact (ends c rfl).2 (point ▸ List.mem_cons_self)
          simp [fraction?, noPoint]
  | cons c input =>
      by_cases point : c = '.'
      · subst point
        simp only [List.cons_append, fraction?, digits_append ends] at read ⊢
        generalize digits input = found at read ⊢
        obtain ⟨taken, others⟩ := found
        cases taken with
        | nil => cases read
        | cons first more =>
            cases read
            rfl
      · have plain (others : List Char) : fraction? (c :: others) = some (none, c :: others) := by
          simp [fraction?, point]
        rw [plain] at read
        cases read
        exact plain (input ++ rest)

theorem exponent?_append {input left : List Char} {exponent : Option (Bool × List Char)}
    (read : exponent? input = some (exponent, left)) :
    exponent? (input ++ rest) = some (exponent, left ++ rest) := by
  cases input with
  | nil =>
      cases read
      cases rest with
      | nil => rfl
      | cons c rest =>
          have noMark : ¬(c = 'e' ∨ c = 'E') := by
            have marks := (ends c rfl).2
            simp only [List.mem_cons, not_or] at marks
            exact not_or.mpr ⟨marks.2.1, marks.2.2.1⟩
          simp [exponent?, noMark]
  | cons c input =>
      simp only [List.cons_append, exponent?] at read ⊢
      by_cases mark : c = 'e' ∨ c = 'E'
      · rw [if_pos mark] at read ⊢
        cases input with
        | nil => cases read
        | cons sign input =>
            rw [List.cons_append, exponentSign_cons_append]
            simp only [digits_append ends] at read ⊢
            generalize exponentSign (sign :: input) = signed at read ⊢
            obtain ⟨down, unsigned⟩ := signed
            simp only at read ⊢
            generalize digits unsigned = found at read ⊢
            obtain ⟨taken, others⟩ := found
            cases taken with
            | nil => cases read
            | cons first more =>
                cases read
                rfl
      · rw [if_neg mark] at read ⊢
        cases read
        rfl

theorem numeral?_append {input left : List Char} {numeral : Numeral}
    (read : numeral? input = some (numeral, left)) :
    numeral? (input ++ rest) = some (numeral, left ++ rest) := by
  cases input with
  | nil => cases read
  | cons c input =>
      simp only [numeral?, Option.bind_eq_bind, Option.pure_def, Option.bind_eq_some_iff,
        Option.some.injEq, Prod.mk.injEq, Prod.exists] at read ⊢
      obtain ⟨whole, afterWhole, readWhole, fraction, afterFraction, readFraction, exponent,
        afterExponent, readExponent, same, sameLeft⟩ := read
      subst sameLeft
      rw [List.cons_append, minusSign_cons_append]
      exact ⟨whole, _, whole?_append ends readWhole, fraction, _,
        fraction?_append ends readFraction, exponent, _, exponent?_append ends readExponent,
        same, rfl⟩

end Append

/-! ### The characters of numbers -/

def isNumeric (c : Char) : Bool := c.isDigit || ['-', '.', 'e', '+'].contains c

theorem isSpace_of_isNumeric {c : Char} (numeric : isNumeric c = true) : isSpace c = false := by
  apply Bool.eq_false_iff.mpr
  intro space
  simp only [isSpace, Bool.or_eq_true, beq_iff_eq] at space
  rcases space with ((same | same) | same) | same <;>
    exact absurd (same ▸ numeric) (by decide)

theorem first_of_isNumeric {c : Char} (numeric : isNumeric c = true) (rest : List Char) :
    first (c :: rest) =
      match numeral? (c :: rest) with
      | none => (.bad, [])
      | some (numeral, left) => (.number numeral.value?, left) := by
  unfold first
  split
  case h_11 => rfl
  all_goals
    rename_i same
    simp only [List.cons.injEq] at same
    rw [same.1] at numeric
    exact absurd numeric (by decide)

theorem ofChars_number {input rest : List Char} {numeral : Numeral}
    (numeric : ∀ c ∈ input, isNumeric c = true) (read : numeral? input = some (numeral, []))
    (ends : EndsNumber rest) :
    ofChars (input ++ rest) = .number numeral.value? :: ofChars rest := by
  cases input with
  | nil => cases read
  | cons c input =>
      have head := numeric c List.mem_cons_self
      have whole := numeral?_append ends read
      rw [List.cons_append] at whole ⊢
      rw [ofChars_cons (isSpace_of_isNumeric head), first_of_isNumeric head, whole]
      rfl

theorem whole?_spelled {input whole left : List Char} (read : whole? input = some (whole, left)) :
    input = whole ++ left ∧ ∀ c ∈ whole, c.isDigit = true := by
  have parts : (digits input).1 ++ (digits input).2 = input := List.takeWhile_append_dropWhile
  have all (c : Char) (member : c ∈ (digits input).1) : c.isDigit = true :=
    List.mem_takeWhile_imp member
  unfold whole? at read
  generalize digits input = found at read parts all
  obtain ⟨taken, others⟩ := found
  cases taken with
  | nil => cases read
  | cons first more =>
      cases more with
      | nil =>
          cases read
          exact ⟨parts.symm, all⟩
      | cons second more =>
          simp only at read
          split at read
          · cases read
          · cases read
            exact ⟨parts.symm, all⟩

theorem fraction?_left {input left : List Char} {fraction : Option (List Char)}
    (read : fraction? input = some (fraction, left)) :
    left <:+ input ∧ (fraction = none → left = input) := by
  unfold fraction? at read
  split at read
  · rename_i input
    have parts : (digits input).2 <:+ input := List.dropWhile_suffix _
    generalize digits input = found at read parts
    obtain ⟨taken, others⟩ := found
    cases taken with
    | nil => cases read
    | cons first more =>
        cases read
        exact ⟨parts.trans (List.suffix_cons _ _), fun absent => nomatch absent⟩
  · cases read
    exact ⟨List.suffix_refl _, fun _ => rfl⟩

theorem exponentSign_suffix (input : List Char) : (exponentSign input).2 <:+ input := by
  unfold exponentSign
  split
  · exact List.suffix_cons _ _
  · exact List.suffix_cons _ _
  · exact List.suffix_refl _

theorem exponent?_left {input left : List Char} {exponent : Option (Bool × List Char)}
    (read : exponent? input = some (exponent, left)) :
    left <:+ input ∧ (exponent = none → left = input) := by
  cases input with
  | nil =>
      cases read
      exact ⟨List.suffix_refl _, fun _ => rfl⟩
  | cons c input =>
      simp only [exponent?] at read
      split at read
      · have unsigned := exponentSign_suffix input
        have parts : (digits (exponentSign input).2).2 <:+ (exponentSign input).2 :=
          List.dropWhile_suffix _
        generalize digits (exponentSign input).2 = found at read parts
        obtain ⟨taken, others⟩ := found
        cases taken with
        | nil => cases read
        | cons first more =>
            cases read
            refine ⟨(parts.trans unsigned).trans (List.suffix_cons _ _), ?_⟩
            intro absent
            cases absent
      · cases read
        exact ⟨List.suffix_refl _, fun _ => rfl⟩

theorem minusSign_spelled (input : List Char) :
    (minusSign input).2 <:+ input ∧ ∀ c ∈ input, c ∈ (minusSign input).2 ∨ c = '-' := by
  unfold minusSign
  split
  · refine ⟨List.suffix_cons _ _, ?_⟩
    intro c member
    exact (List.mem_cons.mp member).symm
  · exact ⟨List.suffix_refl _, fun _ member => Or.inl member⟩

/-- A number without a point and an exponent is spelled by its digits and its sign. -/
theorem numeral?_spelled {input left : List Char} {numeral : Numeral}
    (read : numeral? input = some (numeral, left)) :
    left <:+ input ∧
      (numeral.fraction = none → numeral.exponent = none →
        ∀ c ∈ input, c ∈ left ∨ c.isDigit = true ∨ c = '-') := by
  simp only [numeral?, Option.bind_eq_bind, Option.pure_def, Option.bind_eq_some_iff,
    Option.some.injEq, Prod.mk.injEq, Prod.exists] at read
  obtain ⟨whole, afterWhole, readWhole, fraction, afterFraction, readFraction, exponent,
    afterExponent, readExponent, same, sameLeft⟩ := read
  subst same
  subst sameLeft
  obtain ⟨unsigned, all⟩ := whole?_spelled readWhole
  obtain ⟨leftFraction, noFraction⟩ := fraction?_left readFraction
  obtain ⟨leftExponent, noExponent⟩ := exponent?_left readExponent
  obtain ⟨afterSign, spelled⟩ := minusSign_spelled input
  constructor
  · have suffix : afterWhole <:+ (minusSign input).2 := unsigned ▸ List.suffix_append _ _
    exact ((leftExponent.trans leftFraction).trans suffix).trans afterSign
  · intro withoutFraction withoutExponent c member
    have kept : afterExponent = afterWhole :=
      (noExponent withoutExponent).trans (noFraction withoutFraction)
    rcases spelled c member with digit | minus
    · rw [unsigned, List.mem_append] at digit
      rcases digit with digit | others
      · exact Or.inr (Or.inl (all c digit))
      · exact Or.inl (kept ▸ others)
    · exact Or.inr (Or.inr minus)

end Token

/-! ### Written binary64 numbers -/

structure Marked (input : List Char) : Prop where
  numeric : ∀ c ∈ input, Token.isNumeric c = true
  mark : '.' ∈ input ∨ 'e' ∈ input

theorem isNumeric_of_isDigit {c : Char} (digit : c.isDigit = true) : Token.isNumeric c = true := by
  simp [Token.isNumeric, digit]

theorem marked_around {mark : Char} (isMark : mark = '.' ∨ mark = 'e') (before after : List Char)
    (numericBefore : ∀ c ∈ before, Token.isNumeric c = true)
    (numericAfter : ∀ c ∈ after, Token.isNumeric c = true) : Marked (before ++ mark :: after) := by
  have present : mark ∈ before ++ mark :: after := by simp
  constructor
  · intro c member
    rcases List.mem_append.mp member with earlier | later
    · exact numericBefore c earlier
    · rcases List.mem_cons.mp later with same | later
      · subst same
        rcases isMark with same | same
        · exact same ▸ rfl
        · exact same ▸ rfl
      · exact numericAfter c later
  · rcases isMark with same | same
    · exact Or.inl (same ▸ present)
    · exact Or.inr (same ▸ present)

theorem isDigit_of_mem_significant {d : Decimal} {c : Char} (member : c ∈ d.significant) :
    c.isDigit = true := by
  unfold Decimal.significant at member
  rw [List.mem_reverse] at member
  have kept := (List.dropWhile_suffix _).subset member
  rw [List.mem_reverse] at kept
  exact Nat.isDigit_of_mem_toDigits (by decide) (by decide) kept

theorem marked_positional {digits : List Char} (all : ∀ c ∈ digits, c.isDigit = true)
    (leading : Int) : Marked (numberLayout.positional digits leading) := by
  have numeric (c : Char) (member : c ∈ digits) : Token.isNumeric c = true :=
    isNumeric_of_isDigit (all c member)
  have zeros (count : Nat) (c : Char) (member : c ∈ List.replicate count '0') :
      Token.isNumeric c = true :=
    List.eq_of_mem_replicate member ▸ rfl
  unfold NumberLayout.positional
  split
  · apply marked_around (Or.inl rfl) ['0'] _ (List.forall_mem_singleton.mpr rfl)
    intro c member
    exact (List.mem_append.mp member).elim (zeros _ c) (numeric c)
  · simp only
    split
    · apply marked_around (Or.inl rfl) _ ['0'] ?_ (List.forall_mem_singleton.mpr rfl)
      intro c member
      exact (List.mem_append.mp member).elim (numeric c) (zeros _ c)
    · apply marked_around (Or.inl rfl)
      · intro c member
        exact numeric c (List.mem_of_mem_take member)
      · intro c member
        exact numeric c (List.mem_of_mem_drop member)

theorem marked_scientific {digits : List Char} (all : ∀ c ∈ digits, c.isDigit = true)
    (leading : Int) : Marked (numberLayout.scientific digits leading) := by
  have numeric (c : Char) (member : c ∈ digits) : Token.isNumeric c = true :=
    isNumeric_of_isDigit (all c member)
  unfold NumberLayout.scientific
  simp only [List.append_assoc]
  apply marked_around (Or.inr rfl) _
    ((if leading < 0 then ['-'] else numberLayout.positiveSign.toList) ++
      Nat.toDigits 10 leading.natAbs)
  · intro c member
    split at member
    · cases member
    · exact numeric c member
    · rename_i first rest _
      simp only [List.mem_cons] at member
      rcases member with isFirst | isPoint | later
      · exact numeric c (isFirst ▸ List.mem_cons_self)
      · exact isPoint ▸ rfl
      · exact numeric c (List.mem_cons_of_mem _ (by assumption))
  · intro c member
    rcases List.mem_append.mp member with sign | digit
    · split at sign
      · exact List.mem_singleton.mp sign ▸ rfl
      · exact List.mem_singleton.mp sign ▸ rfl
    · exact isNumeric_of_isDigit (Nat.isDigit_of_mem_toDigits (by decide) (by decide) digit)

theorem marked_write {x : Binary64} (finite : x.isFinite = true) :
    Marked (Number.write (.real x)) := by
  have magnitude : Marked (numberLayout.magnitude x) := by
    unfold NumberLayout.magnitude
    split
    · exact marked_positional (List.forall_mem_singleton.mpr rfl) 0
    · simp only
      split
      · exact marked_positional (fun _ => isDigit_of_mem_significant) _
      · exact marked_scientific (fun _ => isDigit_of_mem_significant) _
  rw [Number.write, NumberLayout.write, if_pos finite]
  split
  · constructor
    · intro c member
      rcases List.mem_cons.mp member with minus | later
      · exact minus ▸ rfl
      · exact magnitude.numeric c later
    · exact magnitude.mark.imp (List.mem_cons_of_mem _) (List.mem_cons_of_mem _)
  · exact magnitude

/-! ### Numbers that are read back -/

/-- A number that is read from the digits of a text is spelled by the whole text. -/
theorem numeral?_of_decodeText {input : List Char}
    (numeric : ∀ c ∈ input, Token.isNumeric c = true) {y : Binary64}
    (read : decodeText Decode.real (String.ofList input) = .ok y) :
    ∃ numeral, Token.numeral? input = some (numeral, []) ∧
      Decode.real .wholeText (.number numeral.value?) = .ok y := by
  unfold decodeText Doc.ofText at read
  rw [String.toList_ofList] at read
  cases input with
  | nil =>
      rw [Token.ofChars_nil] at read
      cases read
  | cons c input =>
      have head := numeric c List.mem_cons_self
      rw [Token.ofChars_cons (Token.isSpace_of_isNumeric head),
        Token.first_of_isNumeric head] at read
      cases found : Token.numeral? (c :: input) with
      | none =>
          rw [found] at read
          cases read
      | some answer =>
          obtain ⟨numeral, left⟩ := answer
          rw [found] at read
          simp only [Doc.read, Doc.step, Doc.startValue, Doc.ofToken?, Doc.complete] at read
          cases decoded : Decode.real .wholeText (.number numeral.value?) with
          | error fault =>
              rw [decoded] at read
              cases read
          | ok value =>
              rw [decoded] at read
              have suffix := (Token.numeral?_spelled found).1
              -- What is left would be a second token, behind which no document is complete.
              cases left with
              | nil =>
                  rw [Token.ofChars_nil] at read
                  exact ⟨numeral, rfl, decoded.trans read⟩
              | cons next left =>
                  have digit := numeric next (suffix.subset List.mem_cons_self)
                  rw [Token.ofChars_cons (Token.isSpace_of_isNumeric digit)] at read
                  cases read

/-- A text with a point or an exponent is read as a binary64 number. -/
theorem value?_of_mark {input : List Char} {numeral : Numeral}
    (read : Token.numeral? input = some (numeral, [])) (mark : '.' ∈ input ∨ 'e' ∈ input) :
    numeral.value? = numeral.realValue?.map .real := by
  have notPlain : (numeral.fraction.isNone && numeral.exponent.isNone) = false := by
    apply Bool.eq_false_iff.mpr
    intro plain
    rw [Bool.and_eq_true, Option.isNone_iff_eq_none, Option.isNone_iff_eq_none] at plain
    have spelled := (Token.numeral?_spelled read).2 plain.1 plain.2
    rcases mark with point | exponent
    · exact absurd (spelled '.' point) (by decide)
    · exact absurd (spelled 'e' exponent) (by decide)
  rw [Numeral.value?, notPlain]
  rfl

end Json

def Binary64.ReadsBack (x : Binary64) : Prop :=
  Json.decodeText Json.Decode.real (Json.compactText (.ofReal x)) = .ok x

namespace Json

theorem isFinite_of_readsBack {x : Binary64} (back : x.ReadsBack) : x.isFinite = true := by
  cases finite : x.isFinite with
  | true => rfl
  | false =>
      have written : Number.write (.real x) = ['n', 'u', 'l', 'l'] := by
        rw [Number.write, NumberLayout.write, finite, if_neg Bool.false_ne_true]
        decide
      have tokens : Token.ofChars ['n', 'u', 'l', 'l'] = [.null] :=
        (Token.ofChars_cons rfl _).trans (congrArg _ Token.ofChars_nil)
      unfold Binary64.ReadsBack decodeText Doc.ofText compactText at back
      rw [Json.ofReal, Json.write, written, String.toList_ofList, tokens] at back
      cases back

theorem isNaN_of_readsBack {x : Binary64} (back : x.ReadsBack) : x.isNaN = false := by
  have finite := isFinite_of_readsBack back
  simp only [Binary64.isFinite, decide_eq_true_eq] at finite
  simp only [Binary64.isNaN, decide_eq_false_iff_not]
  omega

theorem ofChars_write_real {x : Binary64} (back : x.ReadsBack) {rest : List Char}
    (ends : Token.EndsNumber rest) :
    Token.ofChars (Number.write (.real x) ++ rest) =
      .number (some (.real x)) :: Token.ofChars rest := by
  have marked := marked_write (isFinite_of_readsBack back)
  obtain ⟨numeral, read, decoded⟩ := numeral?_of_decodeText marked.numeric back
  rw [Token.ofChars_number marked.numeric read ends]
  rw [value?_of_mark read marked.mark] at decoded ⊢
  cases value : numeral.realValue? with
  | none =>
      rw [value] at decoded
      cases decoded
  | some real =>
      rw [value] at decoded
      cases decoded
      rfl

theorem readsBack_of_numeral {x : Binary64} (input : List Char) (numeral : Numeral)
    (finite : x.isFinite = true) (written : Number.write (.real x) = input)
    (spelled : Token.numeral? input = some (numeral, []))
    (value : numeral.realValue? = some x) : x.ReadsBack := by
  subst written
  have marked := marked_write finite
  have tokens := Token.ofChars_number marked.numeric spelled Token.endsNumber_nil
  rw [List.append_nil, value?_of_mark spelled marked.mark, value, Token.ofChars_nil] at tokens
  unfold Binary64.ReadsBack decodeText Doc.ofText compactText
  rw [String.toList_ofList, Json.ofReal, Json.write, tokens]
  rfl

end Json

end CrewCanvas
