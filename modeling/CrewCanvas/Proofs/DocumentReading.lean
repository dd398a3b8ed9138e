/-
Printed documents are read back.

A reader takes one entry after the other: its key in front of a colon or behind a question mark,
and its fields on the lines that start with two spaces.  It gives back every document whose
entries and fields have keys of their own.  The limits only bound the recursion: a text is at
least as long as the number of its entries or fields.
-/

import CrewCanvas.Proofs.Lists
import CrewCanvas.Proofs.ScalarReading
import CrewCanvas.Yaml.Document

namespace CrewCanvas.Yaml

/-! ### Readers -/

def readName? : List Char → Option (List Char × List Char)
  | [] => none
  | ':' :: ' ' :: rest => some ([], rest)
  | c :: rest => (readName? rest).map (Prod.map (c :: ·) id)

def readFields? : (limit : Nat) → List Char → Option (Fields × List Char)
  | limit + 1, ' ' :: ' ' :: rest => do
      let (name, rest) ← readName? rest
      let (value, rest) ← readScalar? 4 rest
      let (fields, rest) ← readFields? limit rest
      return ((String.ofList name, String.ofList value) :: fields, rest)
  | _, rest => some ([], rest)

/-- Reads a key.  Behind a question mark the first field stands on the line of the colon. -/
def readKey? : List Char → Option (List Char × List Char)
  | '?' :: ' ' :: rest =>
      ((readScalar? 2 rest).bind (skip? [':'])).map (Prod.map id (' ' :: ·))
  | '\'' :: rest => (readSingle? false rest).bind (skip? [':', '\n'])
  | '"' :: rest => (readDouble? 0 0 rest).bind (skip? [':', '\n'])
  | input => (skip? ['\n'] (readPlain input)).map (Prod.map List.dropLast id)

def readEntries? : (limit : Nat) → List Char → Option Document
  | _, [] => some []
  | 0, _ :: _ => none
  | limit + 1, input => do
      let (key, lines) ← readKey? input
      let (fields, rest) ← readFields? lines.length lines
      let entries ← readEntries? limit rest
      return (String.ofList key, fields) :: entries

def Document.read? (text : String) : Option Document :=
  if text = "\x7b\x7d\n" then some [] else readEntries? text.length text.toList

/-! ### What is read back -/

def isPlainName (name : String) : Bool := isSimpleKey name && style true name == .plain

/-- What a document has to be to be read back.  A mapping holds a key once, an entry without
fields has no form of its own, and the names of fields are never quoted. -/
structure Document.Writable (document : Document) : Prop where
  keys : (document.map Prod.fst).Nodup
  filled : ∀ entry ∈ document, entry.2 ≠ []
  names : ∀ entry ∈ document, (entry.2.map Prod.fst).Nodup
  plain : ∀ entry ∈ document, ∀ field ∈ entry.2, isPlainName field.1 = true

/-- A reader that gets every document back from its printed text. -/
def ReadsBack (read : String → Option Document) : Prop :=
  ∀ document : Document, document.Writable → read document.toText = some document

theorem Document.writable_of_names {document : Document} {names : List String}
    (keys : (document.map Prod.fst).Nodup)
    (named : ∀ entry ∈ document, entry.2.map Prod.fst = names)
    (filled : names ≠ []) (distinct : names.Nodup)
    (plain : ∀ name ∈ names, isPlainName name = true) : document.Writable := by
  constructor
  case keys => exact keys
  case filled =>
    intro entry member empty
    have same := named entry member
    rw [empty] at same
    exact filled same.symm
  case names =>
    intro entry member
    exact named entry member ▸ distinct
  case plain =>
    intro entry member field listed
    exact plain field.1 (named entry member ▸ List.mem_map_of_mem listed)

/-! ### Fields -/

theorem plainText_of_style {asKey : Bool} {text : String} (plain : style asKey text = .plain) :
    PlainText text.toList ∧ text.toList ≠ [] := by
  have allowed := style_allows asKey text
  rw [plain] at allowed
  refine ⟨plainText_of_allowsPlain allowed, ?_⟩
  intro empty
  rw [String.toList_eq_nil_iff] at empty
  subst empty
  revert plain
  cases asKey <;> decide

theorem readName?_name {name : List Char}
    (colon : ∀ before after, name = before ++ ':' :: after → isGap after.head? = false)
    (tail : List Char) : readName? (name ++ ':' :: ' ' :: tail) = some (name, tail) := by
  induction name with
  | nil => rfl
  | cons c rest ih =>
      have reads := ih (fun before after same => colon (c :: before) after (same ▸ rfl))
      rw [List.cons_append, readName?, reads]
      · rfl
      · intro more isColon isSpace
        have solid := colon [] rest (isColon ▸ rfl)
        cases rest with
        | nil => cases solid
        | cons next _ =>
            cases isSpace
            cases solid

theorem EndsBlock.mono {indent deeper : Nat} {tail : List Char} (ends : EndsBlock indent tail)
    (within : indent ≤ deeper) : EndsBlock deeper tail := by
  rcases ends with same | ⟨count, c, rest, less, others⟩
  · exact Or.inl same
  · exact Or.inr ⟨count, c, rest, Nat.lt_of_lt_of_le less within, others⟩

theorem writeFields_cons (field : String × String) (rest : Fields) (tail : List Char) :
    writeFields (field :: rest) ++ tail =
      ' ' :: ' ' :: (field.1.toList ++ ':' :: ' ' ::
        (writeScalar 4 (style false field.2) field.2.toList ++ (writeFields rest ++ tail))) := by
  simp [writeFields, writeField, spaces, List.replicate_succ]

theorem plainText_of_isPlainName {name : String} (plain : isPlainName name = true) :
    PlainText name.toList ∧ name.toList ≠ [] := by
  simp only [isPlainName, Bool.and_eq_true, beq_iff_eq] at plain
  exact plainText_of_style plain.2

/-- Fields are indented less than a block that one of them holds. -/
theorem endsBlock_writeFields {fields : Fields}
    (plain : ∀ field ∈ fields, isPlainName field.1 = true) {tail : List Char}
    (ends : EndsBlock 1 tail) : EndsBlock 4 (writeFields fields ++ tail) := by
  cases fields with
  | nil => exact ends.mono (by decide)
  | cons field rest =>
      obtain ⟨name, filled⟩ := plainText_of_isPlainName (plain field List.mem_cons_self)
      obtain ⟨c, others, parts⟩ := List.exists_cons_of_ne_nil filled
      rw [writeFields_cons, parts]
      exact Or.inr ⟨2, c, _, by decide, rfl, name.unbroken c (parts ▸ List.mem_cons_self),
        (name.lead c others parts).1⟩

theorem readFields?_end (limit : Nat) {tail : List Char} (ends : EndsBlock 1 tail) :
    readFields? limit tail = some ([], tail) := by
  rw [readFields?]
  intro _ rest _ same
  rcases ends with empty | ⟨count, c, more, less, parts, _, filled⟩
  · cases empty.symm.trans same
  · cases Nat.lt_one_iff.mp less
    cases parts.symm.trans same
    cases filled

theorem readFields?_writeFields {fields : Fields} {limit : Nat}
    (plain : ∀ field ∈ fields, isPlainName field.1 = true) (within : fields.length ≤ limit)
    {tail : List Char} (ends : EndsBlock 1 tail) :
    readFields? limit (writeFields fields ++ tail) = some (fields, tail) := by
  induction fields generalizing limit with
  | nil => exact readFields?_end limit ends
  | cons field rest ih =>
      have others : ∀ field ∈ rest, isPlainName field.1 = true :=
        fun other member => plain other (List.mem_cons_of_mem _ member)
      obtain ⟨name, _⟩ := plainText_of_isPlainName (plain field List.mem_cons_self)
      have value := readScalar?_writeScalar (style_allows false field.2)
        (endsBlock_writeFields others ends)
      cases limit with
      | zero => cases within
      | succ limit =>
          rw [writeFields_cons, readFields?, readName?_name name.colon]
          simp only [Option.bind_eq_bind, Option.bind_some, value,
            ih others (Nat.le_of_succ_le_succ within), String.ofList_toList]
          rfl

/-! ### Keys -/

theorem style_true_ne_literal (key : String) : style true key ≠ .literal := by
  unfold style
  dsimp only
  split
  · simp
  · simp
  · split
    · simp
    · split <;> simp
  · split <;> simp

/-- A key on one line is plain or in quotes. -/
theorem writeKey_cases (key : String) :
    (writeKey key = key.toList ∧ PlainText key.toList ∧ key.toList ≠ []) ∨
      (writeKey key = singleQuoted 2 key.toList ∧ allowsSingle key.toList = true) ∨
      writeKey key = '"' :: (key.toList.flatMap escape ++ ['"']) := by
  unfold writeKey
  have allowed := style_allows true key
  cases chosen : style true key with
  | plain =>
      rw [writeScalar, List.dropLast_concat]
      exact Or.inl ⟨rfl, plainText_of_style chosen⟩
  | singleQuoted =>
      rw [writeScalar, List.dropLast_concat]
      rw [chosen] at allowed
      exact Or.inr (Or.inl ⟨rfl, allowed⟩)
  | doubleQuoted =>
      have line : writeScalar 2 .doubleQuoted key.toList =
          '"' :: (key.toList.flatMap escape ++ ['"']) ++ ['\n'] := by simp [writeScalar]
      rw [line, List.dropLast_concat]
      exact Or.inr (Or.inr rfl)
  | literal => exact absurd chosen (style_true_ne_literal key)

theorem readKey?_plain {text : List Char} (plain : PlainText text) (filled : text ≠ [])
    (tail : List Char) : readKey? (text ++ ':' :: '\n' :: tail) = some (text, tail) := by
  have unbroken : ∀ c ∈ text ++ [':'], isBreak c = false := by
    intro c member
    rcases List.mem_append.mp member with inside | isColon
    · exact plain.unbroken c inside
    · rw [List.mem_singleton.mp isColon]
      rfl
  have line : readPlain (text ++ ':' :: '\n' :: tail) = (text ++ [':'], '\n' :: tail) := by
    rw [← readPlain_line unbroken, List.append_assoc, List.singleton_append]
  have colon : ∀ c rest, ':' :: '\n' :: tail = c :: rest → c ∉ leadIndicators := by
    intro c rest same
    cases same
    decide
  rw [readKey?, line]
  · have read := skip?_mark (text ++ [':']) ['\n'] tail
    rw [List.singleton_append] at read
    rw [read, Option.map_some, Prod.map_apply, List.dropLast_concat]
    rfl
  · intro rest same
    cases text with
    | nil => exact filled rfl
    | cons c others =>
        obtain ⟨isMark, behind⟩ := List.cons.inj same
        have solid := plain.mark others (isMark ▸ rfl)
        cases others with
        | nil => cases solid
        | cons _ _ =>
            cases behind
            cases solid
  · intro rest same
    exact plain.lead_append colon same (by decide)
  · intro rest same
    exact plain.lead_append colon same (by decide)

theorem readKey?_simple (key : String) (tail : List Char) :
    readKey? (writeKey key ++ ':' :: '\n' :: tail) = some (key.toList, tail) := by
  rcases writeKey_cases key with ⟨written, plain, filled⟩ | ⟨written, allowed⟩ | written
  · rw [written]
    exact readKey?_plain plain filled tail
  · have notQuote : (':' :: '\n' :: tail).head? ≠ some '\'' := by simp
    obtain ⟨inside, quoted, reads⟩ := readSingle?_singleQuoted 2 allowed notQuote
    rw [written, quoted, readKey?, reads]
    exact skip?_mark key.toList [':', '\n'] tail
  · have reads := readDouble?_escaped key.toList (':' :: '\n' :: tail)
    rw [written, List.cons_append, List.append_assoc, List.singleton_append, readKey?, reads]
    exact skip?_mark key.toList [':', '\n'] tail

theorem readKey?_long (key : String) {fields : Fields} (filled : fields ≠ []) (tail : List Char) :
    readKey? ('?' :: ' ' :: (writeScalar 2 (style false key) key.toList ++
        ':' :: (writeFields fields).drop 1) ++ tail) =
      some (key.toList, writeFields fields ++ tail) := by
  have ends : EndsBlock 2 (':' :: ((writeFields fields).drop 1 ++ tail)) :=
    Or.inr ⟨0, ':', _, by decide, rfl, rfl, rfl⟩
  have lines : ' ' :: ((writeFields fields).drop 1 ++ tail) = writeFields fields ++ tail := by
    obtain ⟨field, rest, parts⟩ := List.exists_cons_of_ne_nil filled
    rw [parts]
    rfl
  have colon := skip?_mark key.toList [':'] ((writeFields fields).drop 1 ++ tail)
  rw [List.cons_append, List.cons_append, List.append_assoc, List.cons_append, readKey?,
    readScalar?_writeScalar (style_allows false key) ends, Option.bind_some]
  rw [List.singleton_append] at colon
  rw [colon, Option.map_some, Prod.map_apply, lines]
  rfl

theorem readKey?_writeEntry {entry : String × Fields} (filled : entry.2 ≠ []) (tail : List Char) :
    readKey? (writeEntry entry ++ tail) = some (entry.1.toList, writeFields entry.2 ++ tail) := by
  unfold writeEntry
  split
  · rw [List.append_assoc, List.cons_append, List.cons_append]
    exact readKey?_simple entry.1 _
  · exact readKey?_long entry.1 filled tail

/-! ### Entries -/

/-- An entry starts at the start of its line, and no entry starts like the empty document. -/
theorem writeEntry_start (entry : String × Fields) :
    ∃ c rest, writeEntry entry = c :: rest ∧ isBreak c = false ∧ isSpace c = false ∧
      c ≠ '\x7b' := by
  unfold writeEntry
  split
  · rcases writeKey_cases entry.1 with ⟨written, plain, filled⟩ | ⟨written, _⟩ | written
    · obtain ⟨c, others, parts⟩ := List.exists_cons_of_ne_nil filled
      obtain ⟨shown, lead⟩ := plain.lead c others parts
      rw [written, parts]
      refine ⟨c, _, rfl, plain.unbroken c (parts ▸ List.mem_cons_self), shown, ?_⟩
      intro isBrace
      exact lead (isBrace ▸ by decide)
    · rw [written]
      exact ⟨'\'', _, rfl, rfl, rfl, by decide⟩
    · rw [written]
      exact ⟨'"', _, rfl, rfl, rfl, by decide⟩
  · exact ⟨'?', _, rfl, rfl, rfl, by decide⟩

theorem writeEntry_ne_nil (entry : String × Fields) : writeEntry entry ≠ [] := by
  obtain ⟨c, rest, parts, _⟩ := writeEntry_start entry
  rw [parts]
  exact List.cons_ne_nil c rest

theorem endsBlock_writeEntries (document : Document) :
    EndsBlock 1 (document.flatMap writeEntry) := by
  cases document with
  | nil => exact Or.inl rfl
  | cons entry rest =>
      obtain ⟨c, others, parts, shown, filled, _⟩ := writeEntry_start entry
      rw [List.flatMap_cons, parts]
      exact Or.inr ⟨0, c, _, by decide, rfl, shown, filled⟩

theorem length_le_writeFields (fields : Fields) : fields.length ≤ (writeFields fields).length := by
  refine length_le_flatMap fields ?_
  intro field empty
  cases empty

theorem readEntries?_writeEntries {document : Document} {limit : Nat}
    (filled : ∀ entry ∈ document, entry.2 ≠ [])
    (plain : ∀ entry ∈ document, ∀ field ∈ entry.2, isPlainName field.1 = true)
    (within : document.length ≤ limit) :
    readEntries? limit (document.flatMap writeEntry) = some document := by
  induction document generalizing limit with
  | nil => rw [List.flatMap_nil, readEntries?]
  | cons entry rest ih =>
      cases limit with
      | zero => cases within
      | succ limit =>
          have entries := ih (fun other member => filled other (List.mem_cons_of_mem _ member))
            (fun other member => plain other (List.mem_cons_of_mem _ member))
            (Nat.le_of_succ_le_succ within)
          have enough : entry.2.length ≤
              (writeFields entry.2 ++ rest.flatMap writeEntry).length := by
            rw [List.length_append]
            exact Nat.le_trans (length_le_writeFields entry.2) (Nat.le_add_right _ _)
          have fields := readFields?_writeFields (plain entry List.mem_cons_self) enough
            (endsBlock_writeEntries rest)
          have key := readKey?_writeEntry (filled entry List.mem_cons_self)
            (rest.flatMap writeEntry)
          rw [List.flatMap_cons, readEntries?]
          · simp only [key, fields, entries, Option.bind_eq_bind, Option.bind_some,
              String.ofList_toList]
            rfl
          · intro empty
            exact writeEntry_ne_nil entry (List.append_eq_nil_iff.mp empty).1

theorem readsBack_read? : ReadsBack Document.read? := by
  intro document writable
  cases document with
  | nil => rfl
  | cons entry rest =>
      have written : (Document.toText (entry :: rest)).toList =
          (entry :: rest).flatMap writeEntry := String.toList_ofList
      have notEmpty : Document.toText (entry :: rest) ≠ "\x7b\x7d\n" := by
        intro same
        obtain ⟨c, others, parts, _, _, notBrace⟩ := writeEntry_start entry
        rw [← String.toList_inj, written, List.flatMap_cons, parts] at same
        exact notBrace (List.cons.inj same).1
      have within : (entry :: rest).length ≤ (Document.toText (entry :: rest)).length := by
        rw [← String.length_toList, written]
        exact length_le_flatMap _ writeEntry_ne_nil
      rw [Document.read?, if_neg notEmpty, written]
      exact readEntries?_writeEntries writable.filled writable.plain within

/-- A key and a text in quotes, and a block whose second line starts with a space. -/
example : Document.read? "'it''s':\n  plain: \"a\\tb\"\n  block: |-\n    x\n     y\n" =
    some [("it's", [("plain", "a\tb"), ("block", "x\n y")])] := by decide

end CrewCanvas.Yaml
