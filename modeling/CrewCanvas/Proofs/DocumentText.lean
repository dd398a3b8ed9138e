/-
Documents of written values.

The text of a value, compact or indented, is read as the document of the value, as long as
its numbers are read as they were written.
-/

import CrewCanvas.Proofs.NumberText

namespace CrewCanvas.Json

def Number.Legible (value : Number) : Prop :=
  ∀ rest, Token.EndsNumber rest →
    Token.ofChars (value.write ++ rest) = .number (some value) :: Token.ofChars rest

mutual

def Legible : Json → Prop
  | .number value => value.Legible
  | .list items => AreLegible items
  | .record fields => FieldsAreLegible fields
  | _ => True

def AreLegible : List Json → Prop
  | [] => True
  | item :: rest => Legible item ∧ AreLegible rest

def FieldsAreLegible : List (String × Json) → Prop
  | [] => True
  | (_, value) :: rest => Legible value ∧ FieldsAreLegible rest

end

/-! ### What follows a value -/

theorem endsNumber_cons {c : Char} (notDigit : c.isDigit = false) (noMark : c ∉ ['.', 'e', 'E'])
    (rest : List Char) : Token.EndsNumber (c :: rest) := by
  intro head same
  cases same
  exact ⟨notDigit, noMark⟩

theorem endsNumber_of_isSpace {c : Char} (space : Token.isSpace c = true) (rest : List Char) :
    Token.EndsNumber (c :: rest) := by
  have plain : c.isDigit = false ∧ c ∉ ['.', 'e', 'E'] := by
    simp only [Token.isSpace, Bool.or_eq_true, beq_iff_eq] at space
    rcases space with ((same | same) | same) | same <;> exact same ▸ by decide
  exact endsNumber_cons plain.1 plain.2 rest

theorem isSpace_of_mem_lineBreak {spacing : Spacing} {c : Char} (member : c ∈ spacing.lineBreak) :
    Token.isSpace c = true := by
  cases spacing with
  | compact => cases member
  | indented level =>
      rcases List.mem_cons.mp member with isBreak | isBlank
      · exact isBreak ▸ rfl
      · exact List.eq_of_mem_replicate isBlank ▸ rfl

theorem ofChars_lineBreak (spacing : Spacing) (rest : List Char) :
    Token.ofChars (spacing.lineBreak ++ rest) = Token.ofChars rest :=
  Token.ofChars_spaces (fun _ => isSpace_of_mem_lineBreak) rest

theorem ofChars_afterKey (spacing : Spacing) (rest : List Char) :
    Token.ofChars (spacing.afterKey ++ rest) = .colon :: Token.ofChars rest := by
  cases spacing with
  | compact => exact Token.ofChars_cons rfl rest
  | indented level =>
      exact (Token.ofChars_cons rfl (' ' :: rest)).trans
        (congrArg _ (Token.ofChars_space rfl rest))

/-- The line break in front of a closing bracket ends a number, and so does the bracket. -/
theorem endsNumber_closing (spacing : Spacing) {bracket : Char}
    (closes : bracket = ']' ∨ bracket = '}') (rest : List Char) :
    Token.EndsNumber (spacing.lineBreak ++ bracket :: rest) := by
  cases spacing with
  | compact =>
      rcases closes with same | same
      · exact same ▸ endsNumber_cons (by decide) (by decide) rest
      · exact same ▸ endsNumber_cons (by decide) (by decide) rest
  | indented level => exact endsNumber_of_isSpace rfl _

/-! ### Reading on -/

namespace Doc

/-- Goes on behind a whole value inside frames. -/
def resume (part : Doc) (stack : List Frame) (tokens : List Token) : Doc × Bool :=
  match complete part stack with
  | .go stack expected => read stack expected tokens
  | .whole doc => (doc, tokens.isEmpty)
  | .stop doc => (doc, false)

def ValueDue (expected : Place) : Prop := expected = .value ∨ expected = .firstItem

theorem read_part {expected : Place} (due : ValueDue expected) {token : Token} {part : Doc}
    (isPart : ofToken? token = some part) (stack : List Frame) (tokens : List Token) :
    read stack expected (token :: tokens) = resume part stack tokens := by
  rcases due with same | same <;> subst same <;> cases token <;> cases isPart <;> rfl

theorem read_openList {expected : Place} (due : ValueDue expected) (stack : List Frame)
    (tokens : List Token) :
    read stack expected (.openList :: tokens) = read (.items [] :: stack) .firstItem tokens := by
  rcases due with same | same <;> subst same <;> rfl

theorem read_openRecord {expected : Place} (due : ValueDue expected) (stack : List Frame)
    (tokens : List Token) :
    read stack expected (.openRecord :: tokens) = read (.fields [] :: stack) .firstKey tokens := by
  rcases due with same | same <;> subst same <;> rfl

def KeyDue (expected : Place) : Prop := expected = .key ∨ expected = .firstKey

/-- A written key is read with its colon. -/
theorem read_quote {expected : Place} (due : KeyDue expected) (spacing : Spacing) (key : String)
    (before : List (Doc × Doc)) (stack : List Frame) (rest : List Char) :
    read (.fields before :: stack) expected
        (Token.ofChars (quote key.toList ++ (spacing.afterKey ++ rest))) =
      read (.fieldValue before (.text (some key)) :: stack) .value (Token.ofChars rest) := by
  rw [Token.ofChars_quote, String.ofList_toList, ofChars_afterKey]
  rcases due with same | same <;> subst same <;> rfl

theorem endsNumber_items (spacing outer : Spacing) (items : List Json) (rest : List Char) :
    Token.EndsNumber (writeItems spacing items ++ (outer.lineBreak ++ ']' :: rest)) := by
  cases items with
  | nil => exact endsNumber_closing outer (Or.inl rfl) rest
  | cons item items => exact endsNumber_cons (by decide) (by decide) _

theorem endsNumber_fields (spacing outer : Spacing) (fields : List (String × Json))
    (rest : List Char) :
    Token.EndsNumber (writeFields spacing fields ++ (outer.lineBreak ++ '}' :: rest)) := by
  cases fields with
  | nil => exact endsNumber_closing outer (Or.inr rfl) rest
  | cons field fields => exact endsNumber_cons (by decide) (by decide) _

mutual

/-- A written value is read as its document, and reading goes on behind it. -/
theorem read_write : ∀ (value : Json), Legible value → ∀ (spacing : Spacing) (expected : Place)
    (stack : List Frame) (rest : List Char), ValueDue expected → Token.EndsNumber rest →
      read stack expected (Token.ofChars (write spacing value ++ rest)) =
        resume (ofValue value) stack (Token.ofChars rest)
  | .null, _, spacing, expected, stack, rest, due, _ => by
      have tokens : Token.ofChars (write spacing .null ++ rest) = .null :: Token.ofChars rest :=
        Token.ofChars_cons rfl _
      rw [tokens, read_part due rfl]
      rfl
  | .bool true, _, spacing, expected, stack, rest, due, _ => by
      have tokens : Token.ofChars (write spacing (.bool true) ++ rest) =
          .bool true :: Token.ofChars rest := Token.ofChars_cons rfl _
      rw [tokens, read_part due rfl]
      rfl
  | .bool false, _, spacing, expected, stack, rest, due, _ => by
      have tokens : Token.ofChars (write spacing (.bool false) ++ rest) =
          .bool false :: Token.ofChars rest := Token.ofChars_cons rfl _
      rw [tokens, read_part due rfl]
      rfl
  | .number value, legible, spacing, expected, stack, rest, due, ends => by
      rw [write, legible rest ends, read_part due rfl]
      rfl
  | .text value, _, spacing, expected, stack, rest, due, _ => by
      rw [write, Token.ofChars_quote, String.ofList_toList, read_part due rfl]
      rfl
  | .list [], _, spacing, expected, stack, rest, due, _ => by
      have tokens : Token.ofChars (write spacing (.list []) ++ rest) =
          .openList :: .closeList :: Token.ofChars rest :=
        (Token.ofChars_cons rfl _).trans (congrArg _ (Token.ofChars_cons rfl rest))
      rw [tokens, read_openList due]
      rfl
  | .list (first :: items), legible, spacing, expected, stack, rest, due, _ => by
      have tokens : Token.ofChars (write spacing (.list (first :: items)) ++ rest) =
          .openList :: Token.ofChars (write spacing.deeper first ++
            (writeItems spacing.deeper items ++ (spacing.lineBreak ++ ']' :: rest))) := by
        rw [write]
        simp only [List.cons_append, List.append_assoc, List.nil_append]
        exact (Token.ofChars_cons rfl _).trans (congrArg _ (ofChars_lineBreak _ _))
      rw [tokens, read_openList due, read_write first legible.1 _ _ _ _ (Or.inr rfl)
        (endsNumber_items _ _ _ _)]
      exact read_writeItems items legible.2 spacing.deeper spacing [ofValue first] stack rest
  | .record [], _, spacing, expected, stack, rest, due, _ => by
      have tokens : Token.ofChars (write spacing (.record []) ++ rest) =
          .openRecord :: .closeRecord :: Token.ofChars rest :=
        (Token.ofChars_cons rfl _).trans (congrArg _ (Token.ofChars_cons rfl rest))
      rw [tokens, read_openRecord due]
      rfl
  | .record ((key, value) :: fields), legible, spacing, expected, stack, rest, due, _ => by
      have tokens : Token.ofChars (write spacing (.record ((key, value) :: fields)) ++ rest) =
          .openRecord :: Token.ofChars (quote key.toList ++ (spacing.afterKey ++
            (write spacing.deeper value ++
              (writeFields spacing.deeper fields ++ (spacing.lineBreak ++ '}' :: rest))))) := by
        rw [write]
        simp only [List.cons_append, List.append_assoc, List.nil_append]
        exact (Token.ofChars_cons rfl _).trans (congrArg _ (ofChars_lineBreak _ _))
      rw [tokens, read_openRecord due, read_quote (Or.inr rfl),
        read_write value legible.1 _ _ _ _ (Or.inl rfl) (endsNumber_fields _ _ _ _)]
      exact read_writeFields fields legible.2 spacing.deeper spacing
        [(.text (some key), ofValue value)] stack rest

theorem read_writeItems : ∀ (items : List Json), AreLegible items → ∀ (spacing outer : Spacing)
    (before : List Doc) (stack : List Frame) (rest : List Char),
      read (.items before :: stack) .afterPart
          (Token.ofChars (writeItems spacing items ++ (outer.lineBreak ++ ']' :: rest))) =
        resume (.list (before.reverse ++ ofValues items) true) stack (Token.ofChars rest)
  | [], _, spacing, outer, before, stack, rest => by
      rw [writeItems, List.nil_append, ofChars_lineBreak, Token.ofChars_cons rfl rest, ofValues,
        List.append_nil]
      rfl
  | item :: items, legible, spacing, outer, before, stack, rest => by
      have tokens : Token.ofChars
          (writeItems spacing (item :: items) ++ (outer.lineBreak ++ ']' :: rest)) =
          .comma :: Token.ofChars (write spacing item ++
            (writeItems spacing items ++ (outer.lineBreak ++ ']' :: rest))) := by
        rw [writeItems]
        simp only [List.cons_append, List.append_assoc]
        exact (Token.ofChars_cons rfl _).trans (congrArg _ (ofChars_lineBreak _ _))
      have first := read_write item legible.1 spacing .value (.items before :: stack) _ (Or.inl rfl)
        (endsNumber_items spacing outer items rest)
      have others := read_writeItems items legible.2 spacing outer (ofValue item :: before) stack
        rest
      rw [List.reverse_cons, List.append_assoc] at others
      rw [tokens]
      exact first.trans others

theorem read_writeFields : ∀ (fields : List (String × Json)), FieldsAreLegible fields →
    ∀ (spacing outer : Spacing) (before : List (Doc × Doc)) (stack : List Frame)
      (rest : List Char),
      read (.fields before :: stack) .afterPart
          (Token.ofChars (writeFields spacing fields ++ (outer.lineBreak ++ '}' :: rest))) =
        resume (.record (before.reverse ++ ofFields fields) true) stack (Token.ofChars rest)
  | [], _, spacing, outer, before, stack, rest => by
      rw [writeFields, List.nil_append, ofChars_lineBreak, Token.ofChars_cons rfl rest, ofFields,
        List.append_nil]
      rfl
  | (key, value) :: fields, legible, spacing, outer, before, stack, rest => by
      have tokens : Token.ofChars
          (writeFields spacing ((key, value) :: fields) ++ (outer.lineBreak ++ '}' :: rest)) =
          .comma :: Token.ofChars (quote key.toList ++ (spacing.afterKey ++
            (write spacing value ++
              (writeFields spacing fields ++ (outer.lineBreak ++ '}' :: rest))))) := by
        rw [writeFields]
        simp only [List.cons_append, List.append_assoc]
        exact (Token.ofChars_cons rfl _).trans (congrArg _ (ofChars_lineBreak _ _))
      have named := read_quote (Or.inl rfl) spacing key before stack
        (write spacing value ++ (writeFields spacing fields ++ (outer.lineBreak ++ '}' :: rest)))
      have first := read_write value legible.1 spacing .value
        (.fieldValue before (.text (some key)) :: stack) _ (Or.inl rfl)
        (endsNumber_fields spacing outer fields rest)
      have others := read_writeFields fields legible.2 spacing outer
        ((.text (some key), ofValue value) :: before) stack rest
      rw [List.reverse_cons, List.append_assoc] at others
      rw [tokens]
      exact (named.trans first).trans others

end

/-- The document of a written value, with nothing behind it. -/
theorem ofText_write {value : Json} (legible : Legible value) (spacing : Spacing) :
    ofText (String.ofList (write spacing value)) = (ofValue value, true) := by
  have whole := read_write value legible spacing .value [] [] (Or.inl rfl) Token.endsNumber_nil
  rw [List.append_nil, Token.ofChars_nil] at whole
  rw [ofText, String.toList_ofList, whole]
  rfl

end Doc

/-- A written value is decoded as the value itself is. -/
theorem decodeText_write {α : Type} (decode : Decoder α) {value : Json} (legible : Legible value)
    (spacing : Spacing) :
    decodeText decode (String.ofList (write spacing value)) =
      decode .wholeText (Doc.ofValue value) := by
  unfold decodeText
  rw [Doc.ofText_write legible]
  simp only
  cases decode .wholeText (Doc.ofValue value) <;> rfl

end CrewCanvas.Json
