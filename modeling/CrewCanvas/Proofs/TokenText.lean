/-
Tokens of written texts.

The tokens of a text in front of which something was written are the token that was written
and the tokens of the text.  A number needs a text that does not go on with it.
-/

import CrewCanvas.Json.Print
import CrewCanvas.Json.Token

namespace CrewCanvas.Json.Token

/-! ### Spaces and signs -/

theorem ofChars_eq (input : List Char) :
    ofChars input =
      match input.dropWhile isSpace with
      | [] => []
      | c :: rest => (first (c :: rest)).1 :: ofChars (first (c :: rest)).2 := by
  rw [ofChars]
  split <;> simp [*]

theorem ofChars_nil : ofChars [] = [] := by
  rw [ofChars_eq]
  rfl

theorem ofChars_space {c : Char} (space : isSpace c = true) (rest : List Char) :
    ofChars (c :: rest) = ofChars rest := by
  rw [ofChars_eq, ofChars_eq rest, List.dropWhile_cons_of_pos space]

theorem ofChars_spaces {spaces : List Char} (all : ∀ c ∈ spaces, isSpace c = true)
    (rest : List Char) : ofChars (spaces ++ rest) = ofChars rest := by
  induction spaces with
  | nil => rfl
  | cons c spaces ih =>
      rw [List.cons_append, ofChars_space (all c List.mem_cons_self)]
      exact ih (fun other member => all other (List.mem_cons_of_mem _ member))

theorem ofChars_cons {c : Char} (shown : isSpace c = false) (rest : List Char) :
    ofChars (c :: rest) = (first (c :: rest)).1 :: ofChars (first (c :: rest)).2 := by
  rw [ofChars_eq, List.dropWhile_cons_of_neg (by simp [shown])]

/-! ### Quoted texts -/

def piece (c : Char) : Piece :=
  if c.toNat < 32 ∧ c.toNat ∉ [8, 9, 10, 12, 13] then .unit c.toNat else .char c

theorem pieces?_control {value : Nat} (low : value < 256) (rest : List Char) :
    pieces? ('\\' :: 'u' :: '0' :: '0' :: hexDigit (value / 16) :: hexDigit (value % 16) :: rest) =
      (pieces? rest).map (fun found => (.unit value :: found.1, found.2)) := by
  have high : Digits.hexValue? (hexDigit (value / 16)) = some (value / 16) :=
    Digits.hexValue?_digitChar (value / 16) (by omega)
  have last : Digits.hexValue? (hexDigit (value % 16)) = some (value % 16) :=
    Digits.hexValue?_digitChar (value % 16) (by omega)
  have zero : Digits.hexValue? '0' = some 0 := by decide
  have unit : hexUnit? '0' '0' (hexDigit (value / 16)) (hexDigit (value % 16)) = some value := by
    simp only [hexUnit?, high, last, zero, Option.bind_eq_bind, Option.bind_some, Option.pure_def]
    congr 1
    omega
  rw [pieces?, unit]
  cases pieces? rest <;> rfl

theorem pieces?_short {c letter : Char} (short : shortEscape? letter = some c)
    (notUnit : letter ≠ 'u') (rest : List Char) :
    pieces? ('\\' :: letter :: rest) =
      (pieces? rest).map (fun found => (.char c :: found.1, found.2)) := by
  rw [pieces?, short]
  · cases pieces? rest <;> rfl
  · intro _ _ _ _ _ isUnit
    exact absurd isUnit notUnit

theorem pieces?_plain {c : Char} (notQuote : c ≠ '"') (notSlash : c ≠ '\\')
    (notControl : ¬c.toNat < 32) (rest : List Char) :
    pieces? (c :: rest) = (pieces? rest).map (fun found => (.char c :: found.1, found.2)) := by
  rw [pieces?, if_neg (not_or.mpr ⟨notSlash, notControl⟩)]
  · cases pieces? rest <;> rfl
  · exact notQuote
  · intro _ _ _ _ _ isSlash
    exact absurd isSlash notSlash
  · intro _ _ isSlash
    exact absurd isSlash notSlash

/-- A character is escaped by a letter or by its code, or it is written as it is. -/
theorem escape_cases (c : Char) :
    (∃ letter, escape c = ['\\', letter] ∧ shortEscape? letter = some c ∧ letter ≠ 'u' ∧
        piece c = .char c) ∨
      (escape c =
          ['\\', 'u', '0', '0', hexDigit (c.toNat / 16), hexDigit (c.toNat % 16)] ∧
        c.toNat < 32 ∧ piece c = .unit c.toNat) ∨
      (escape c = [c] ∧ c ≠ '"' ∧ c ≠ '\\' ∧ ¬c.toNat < 32 ∧ piece c = .char c) := by
  have short {code : Nat} {letter : Char} (same : c.toNat = code)
      (listed : code ∈ [8, 9, 10, 12, 13]) (reads : shortEscape? letter = some (Char.ofNat code))
      (notUnit : letter ≠ 'u') :
      shortEscape? letter = some c ∧ letter ≠ 'u' ∧ piece c = .char c := by
    subst same
    rw [Char.ofNat_toNat] at reads
    exact ⟨reads, notUnit, if_neg (fun control => control.2 listed)⟩
  unfold escape
  by_cases quote : c = '"'
  · subst quote
    exact Or.inl ⟨'"', rfl, rfl, by decide, rfl⟩
  by_cases slash : c = '\\'
  · subst slash
    exact Or.inl ⟨'\\', rfl, rfl, by decide, rfl⟩
  rw [if_neg quote, if_neg slash]
  by_cases backspace : c.toNat = 8
  · exact Or.inl ⟨'b', if_pos backspace, short backspace (by decide) rfl (by decide)⟩
  rw [if_neg backspace]
  by_cases tab : c.toNat = 9
  · exact Or.inl ⟨'t', if_pos tab, short tab (by decide) rfl (by decide)⟩
  rw [if_neg tab]
  by_cases lineBreak : c.toNat = 10
  · exact Or.inl ⟨'n', if_pos lineBreak, short lineBreak (by decide) rfl (by decide)⟩
  rw [if_neg lineBreak]
  by_cases formFeed : c.toNat = 12
  · exact Or.inl ⟨'f', if_pos formFeed, short formFeed (by decide) rfl (by decide)⟩
  rw [if_neg formFeed]
  by_cases carriage : c.toNat = 13
  · exact Or.inl ⟨'r', if_pos carriage, short carriage (by decide) rfl (by decide)⟩
  rw [if_neg carriage]
  by_cases control : c.toNat < 32
  · have unit : piece c = .unit c.toNat := by
      simp [piece, control, backspace, tab, lineBreak, formFeed, carriage]
    exact Or.inr (Or.inl ⟨if_pos control, control, unit⟩)
  · exact Or.inr (Or.inr ⟨if_neg control, quote, slash, control,
      if_neg (fun both => control both.1)⟩)

theorem pieces?_escape (c : Char) (rest : List Char) :
    pieces? (escape c ++ rest) =
      (pieces? rest).map (fun found => (piece c :: found.1, found.2)) := by
  rcases escape_cases c with ⟨letter, written, short, notUnit, read⟩ | ⟨written, control, read⟩ |
    ⟨written, notQuote, notSlash, shown, read⟩
  · rw [written, read]
    exact pieces?_short short notUnit rest
  · rw [written, read]
    exact pieces?_control (by omega) rest
  · rw [written, read]
    exact pieces?_plain notQuote notSlash shown rest

theorem pieces?_quoted (text rest : List Char) :
    pieces? (text.flatMap escape ++ '"' :: rest) = some (text.map piece, rest) := by
  induction text with
  | nil => rfl
  | cons c text ih =>
      rw [List.flatMap_cons, List.append_assoc, pieces?_escape, ih]
      rfl

theorem joinPieces_unit {value : Nat} (low : value < 32) (rest : List Piece) :
    joinPieces (.unit value :: rest) = (joinPieces rest).map (Char.ofNat value :: ·) := by
  have notHigh : ¬(0xD800 ≤ value ∧ value < 0xDC00) := by omega
  have notLow : ¬(0xDC00 ≤ value ∧ value < 0xE000) := by omega
  have alone : ¬(0xD800 ≤ value ∧ value < 0xE000) := by omega
  cases rest with
  | nil => simp only [joinPieces, if_neg alone]
  | cons next rest =>
      cases next with
      | char c => simp only [joinPieces, if_neg alone]
      | unit other => rw [joinPieces, if_neg notHigh, if_neg notLow]

theorem joinPieces_map_piece (text : List Char) : joinPieces (text.map piece) = some text := by
  induction text with
  | nil => rfl
  | cons c text ih =>
      rw [List.map_cons, piece]
      split
      · rename_i control
        rw [joinPieces_unit control.1, ih, Option.map_some, Char.ofNat_toNat]
      · rw [joinPieces, ih, Option.map_some]

theorem ofChars_quote (text rest : List Char) :
    ofChars (quote text ++ rest) = .text (some (String.ofList text)) :: ofChars rest := by
  have read : first (quote text ++ rest) = (.text (some (String.ofList text)), rest) := by
    rw [quote, List.cons_append, List.append_assoc, List.singleton_append, first, pieces?_quoted]
    simp only [joinPieces_map_piece, Option.map_some]
  rw [quote, List.cons_append] at read ⊢
  rw [ofChars_cons rfl, read]

end CrewCanvas.Json.Token
