/-
Blank characters of human-entered text: underscored names, trimmed text and
comma separated lists.

A blank is a character with the Unicode property White_Space.  Every operation
of this module is a recursion over the characters, so that a law about it is an
induction over the text.
-/

namespace CrewCanvas.Text

/-- The 25 characters with the property White_Space. -/
def isBlank (c : Char) : Bool :=
  let code := c.toNat
  (9 ≤ code && code ≤ 13) || code == 0x20 || code == 0x85 || code == 0xA0 ||
    code == 0x1680 || (0x2000 ≤ code && code ≤ 0x200A) || code == 0x2028 ||
    code == 0x2029 || code == 0x202F || code == 0x205F || code == 0x3000

theorem isBlank_underscore : isBlank '_' = false := by decide

theorem isBlank_comma : isBlank ',' = false := by decide

/-- Replaces every maximal run of blanks by one underscore.  Inside a run the
underscore has been written already. -/
def underscoreRuns (insideRun : Bool) : List Char → List Char
  | [] => []
  | c :: rest =>
      if isBlank c then
        if insideRun then underscoreRuns true rest
        else '_' :: underscoreRuns true rest
      else c :: underscoreRuns false rest

def sanitize (name : String) : String :=
  String.ofList (underscoreRuns false name.toList)

@[simp] theorem toList_sanitize (name : String) :
    (sanitize name).toList = underscoreRuns false name.toList := by
  simp [sanitize]

def trim (text : List Char) : List Char :=
  ((text.dropWhile isBlank).reverse.dropWhile isBlank).reverse

def isBlankText (text : String) : Bool :=
  text.toList.all isBlank

/-- The pieces of a text between its commas, one more than there are commas. -/
def splitCommas : List Char → List (List Char)
  | [] => [[]]
  | c :: rest =>
      match splitCommas rest with
      | [] => [[c]]
      | piece :: pieces =>
          if c = ',' then [] :: piece :: pieces else (c :: piece) :: pieces

theorem splitCommas_ne_nil (text : List Char) : splitCommas text ≠ [] := by
  cases text with
  | nil => simp [splitCommas]
  | cons c rest =>
      rw [splitCommas]
      split
      · simp
      · split <;> simp

def commaTokens (text : List Char) : List (List Char) :=
  ((splitCommas text).map trim).filter (fun token => !token.isEmpty)

def joinWith (separator : String) (texts : List String) : String :=
  separator.intercalate texts

end CrewCanvas.Text
