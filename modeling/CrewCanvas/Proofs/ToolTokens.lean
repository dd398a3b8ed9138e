/-
Tokens of a tool list.

The tokens of a list are its trimmed pieces between commas, so each has a character, none of them
a comma and none at its ends a blank.  Lists that are put together with a comma have the tokens
of both, and tokens that are written with commas and any blanks around them are read back.
-/

import CrewCanvas.Node.Basic
import CrewCanvas.Proofs.BlankRuns
import Mathlib.Data.List.DropRight

namespace CrewCanvas

namespace Text

structure IsToken (token : List Char) : Prop where
  filled : token ≠ []
  uncut : ',' ∉ token
  starts : ¬StartsBlank token
  ends : ¬EndsBlank token

/-- The text lists the tokens: it holds them in their order, with a comma and any blanks around
it between each two of them. -/
inductive Lists : List Char → List (List Char) → Prop
  | nothing : Lists [] []
  | last (token : List Char) : Lists token [token]
  | more (token : List Char) {before after text next : List Char} {rest : List (List Char)}
      (blankBefore : ∀ c ∈ before, isBlank c = true) (blankAfter : ∀ c ∈ after, isBlank c = true)
      (others : Lists text (next :: rest)) :
      Lists (token ++ before ++ ',' :: (after ++ text)) (token :: next :: rest)

/-! ### Trimmed texts -/

theorem not_startsBlank_dropWhile (text : List Char) :
    ¬StartsBlank (text.dropWhile isBlank) := by
  have first := List.head?_dropWhile_not isBlank text
  rw [StartsBlank]
  cases head : (text.dropWhile isBlank).head? with
  | none => simp
  | some c =>
      rw [head] at first
      simpa using first

theorem endsBlank_reverse {text : List Char} : EndsBlank text.reverse ↔ StartsBlank text := by
  rw [EndsBlank, StartsBlank, List.getLast?_reverse]

theorem StartsBlank.append {text : List Char} (starts : StartsBlank text) (other : List Char) :
    StartsBlank (text ++ other) := by
  cases text with
  | nil => simp [StartsBlank] at starts
  | cons c rest => exact starts

theorem trim_eq_rdropWhile (text : List Char) :
    trim text = (text.dropWhile isBlank).rdropWhile isBlank := rfl

theorem not_startsBlank_trim (text : List Char) : ¬StartsBlank (trim text) := by
  intro starts
  obtain ⟨back, parts⟩ := List.rdropWhile_prefix isBlank (text.dropWhile isBlank)
  rw [← trim_eq_rdropWhile] at parts
  exact not_startsBlank_dropWhile text (parts ▸ starts.append back)

theorem not_endsBlank_trim (text : List Char) : ¬EndsBlank (trim text) := by
  rw [trim, endsBlank_reverse]
  exact not_startsBlank_dropWhile _

theorem mem_of_mem_trim {text : List Char} {c : Char} (member : c ∈ trim text) : c ∈ text := by
  rw [trim, List.mem_reverse] at member
  have kept := (List.dropWhile_sublist isBlank).mem member
  rw [List.mem_reverse] at kept
  exact (List.dropWhile_sublist isBlank).mem kept

theorem dropWhile_of_not_startsBlank {text : List Char} (shown : ¬StartsBlank text) :
    text.dropWhile isBlank = text := by
  cases text with
  | nil => rfl
  | cons c rest => exact List.dropWhile_cons_of_neg (by simpa [StartsBlank] using shown)

/-- Trimming takes away the blanks around a token and nothing else. -/
theorem trim_spaced {token before after : List Char} (isToken : IsToken token)
    (blankBefore : ∀ c ∈ before, isBlank c = true) (blankAfter : ∀ c ∈ after, isBlank c = true) :
    trim (before ++ (token ++ after)) = token := by
  -- The token has a first character, so blanks behind it do not make it start with one.
  have shown : ¬StartsBlank (token ++ after) := by
    intro starts
    obtain ⟨c, rest, rfl⟩ := List.exists_cons_of_ne_nil isToken.filled
    exact isToken.starts starts
  have reversed : ¬StartsBlank token.reverse := by
    rw [← endsBlank_reverse, List.reverse_reverse]
    exact isToken.ends
  have blankReversed : ∀ c ∈ after.reverse, isBlank c = true := by
    intro c member
    exact blankAfter c (List.mem_reverse.mp member)
  rw [trim, List.dropWhile_append_of_pos blankBefore, dropWhile_of_not_startsBlank shown,
    List.reverse_append, List.dropWhile_append_of_pos blankReversed,
    dropWhile_of_not_startsBlank reversed, List.reverse_reverse]

theorem trim_blanks {blanks : List Char} (all : ∀ c ∈ blanks, isBlank c = true) :
    trim blanks = [] := by
  rw [trim_eq_rdropWhile, List.dropWhile_eq_nil_iff.mpr all, List.rdropWhile_nil]

/-! ### Pieces between commas -/

theorem splitCommas_eq_splitOn (text : List Char) : splitCommas text = text.splitOn ',' := by
  induction text with
  | nil => rfl
  | cons c rest ih =>
      obtain ⟨piece, pieces, parts⟩ := List.exists_cons_of_ne_nil (splitCommas_ne_nil rest)
      rw [splitCommas, List.splitOn_cons_eq_if_modifyHead, ← ih, parts]
      simp

theorem comma_notMem_splitCommas {text piece : List Char} (member : piece ∈ splitCommas text) :
    ',' ∉ piece := by
  induction text generalizing piece with
  | nil =>
      rw [splitCommas, List.mem_singleton] at member
      exact member ▸ List.not_mem_nil
  | cons c rest ih =>
      obtain ⟨first, others, parts⟩ := List.exists_cons_of_ne_nil (splitCommas_ne_nil rest)
      rw [parts] at ih
      simp only [splitCommas, parts] at member
      split at member
      · rcases List.mem_cons.mp member with isEmpty | inRest
        · exact isEmpty ▸ List.not_mem_nil
        · exact ih inRest
      · rename_i other
        rcases List.mem_cons.mp member with isFirst | inRest
        · rw [isFirst, List.mem_cons, not_or]
          exact ⟨Ne.symm other, ih List.mem_cons_self⟩
        · exact ih (List.mem_cons_of_mem first inRest)

theorem commaTokens_append (left right : List Char) :
    commaTokens (left ++ ',' :: right) = commaTokens left ++ commaTokens right := by
  simp only [commaTokens, splitCommas_eq_splitOn, List.splitOn_append_cons_self, List.map_append,
    List.filter_append]

theorem isToken_of_mem_commaTokens {text token : List Char} (member : token ∈ commaTokens text) :
    IsToken token := by
  obtain ⟨trimmed, filled⟩ := List.mem_filter.mp member
  obtain ⟨piece, isPiece, rfl⟩ := List.mem_map.mp trimmed
  constructor
  case filled => simpa using filled
  case uncut => exact fun inside => comma_notMem_splitCommas isPiece (mem_of_mem_trim inside)
  case starts => exact not_startsBlank_trim piece
  case ends => exact not_endsBlank_trim piece

theorem comma_notMem_blanks {blanks : List Char} (all : ∀ c ∈ blanks, isBlank c = true) :
    ',' ∉ blanks := by
  intro comma
  have blank := all ',' comma
  rw [isBlank_comma] at blank
  cases blank

theorem commaTokens_blanks {blanks : List Char} (all : ∀ c ∈ blanks, isBlank c = true) :
    commaTokens blanks = [] := by
  rw [commaTokens, splitCommas_eq_splitOn, List.splitOn_eq_singleton (comma_notMem_blanks all),
    List.map_singleton, trim_blanks all]
  rfl

theorem commaTokens_spaced {token before after : List Char} (isToken : IsToken token)
    (blankBefore : ∀ c ∈ before, isBlank c = true) (blankAfter : ∀ c ∈ after, isBlank c = true) :
    commaTokens (before ++ (token ++ after)) = [token] := by
  have uncut : ',' ∉ before ++ (token ++ after) := by
    rw [List.mem_append, List.mem_append, not_or, not_or]
    exact ⟨comma_notMem_blanks blankBefore, isToken.uncut, comma_notMem_blanks blankAfter⟩
  rw [commaTokens, splitCommas_eq_splitOn, List.splitOn_eq_singleton uncut, List.map_singleton,
    trim_spaced isToken blankBefore blankAfter]
  simp [isToken.filled]

/-- Tokens that are listed are read back, also behind blanks. -/
theorem commaTokens_of_lists {text : List Char} {tokens : List (List Char)}
    (listed : Lists text tokens) (each : ∀ token ∈ tokens, IsToken token) {lead : List Char}
    (blank : ∀ c ∈ lead, isBlank c = true) : commaTokens (lead ++ text) = tokens := by
  induction listed generalizing lead with
  | nothing => rw [List.append_nil, commaTokens_blanks blank]
  | last token =>
      have single := commaTokens_spaced (each token List.mem_cons_self) blank
        (fun _ member => absurd member List.not_mem_nil)
      rw [List.append_nil] at single
      exact single
  | more token blankBefore blankAfter others ih =>
      rename_i before after text next rest
      have first := commaTokens_spaced (each token List.mem_cons_self) blank blankBefore
      have later := ih (fun other member => each other (List.mem_cons_of_mem token member))
        blankAfter
      rw [← List.append_assoc, commaTokens_append, first, later]
      rfl

theorem lists_intercalate (tokens : List (List Char)) : Lists ([','].intercalate tokens) tokens := by
  induction tokens with
  | nil => exact Lists.nothing
  | cons token rest ih =>
      cases rest with
      | nil =>
          rw [List.intercalate_singleton]
          exact Lists.last token
      | cons next rest =>
          have unspaced : ∀ c ∈ ([] : List Char), isBlank c = true := by simp
          have listed := Lists.more token unspaced unspaced ih
          rw [List.append_nil, List.nil_append] at listed
          rw [List.intercalate_cons_cons, List.append_assoc]
          exact listed

end Text

/-! ### Tool names -/

/-- How the list of tools of an agent is read.  A list without a comma is blank or a name with
blanks around it, and any other is put together from such lists. -/
structure ReadsTools (data : AgentData) : Prop where
  tokens : ∀ name ∈ data.toolNames, Text.IsToken name.toList
  blank : ∀ tools : String, Text.isBlankText tools = true → { data with tools }.toolNames = []
  single : ∀ before name after : String, Text.isBlankText before = true →
    Text.IsToken name.toList → Text.isBlankText after = true →
    { data with tools := before ++ (name ++ after) }.toolNames = [name]
  appended : ∀ left right : String, { data with tools := left ++ "," ++ right }.toolNames =
    { data with tools := left }.toolNames ++ { data with tools := right }.toolNames
  reread : ∀ tools : String, Text.Lists tools.toList (data.toolNames.map String.toList) →
    { data with tools }.toolNames = data.toolNames
  rejoined : { data with tools := Text.joinWith "," data.toolNames }.toolNames = data.toolNames

namespace AgentData

theorem toList_toolNames (data : AgentData) :
    data.toolNames.map String.toList = Text.commaTokens data.tools.toList := by
  rw [toolNames, List.map_map]
  simp [Function.comp_def]

theorem isToken_of_mem_toolNames {data : AgentData} {name : String}
    (member : name ∈ data.toolNames) : Text.IsToken name.toList := by
  obtain ⟨token, isToken, rfl⟩ := List.mem_map.mp member
  rw [String.toList_ofList]
  exact Text.isToken_of_mem_commaTokens isToken

theorem toolNames_of_lists {data : AgentData} {tools : String}
    (listed : Text.Lists tools.toList (data.toolNames.map String.toList)) :
    { data with tools }.toolNames = data.toolNames := by
  have each : ∀ token ∈ data.toolNames.map String.toList, Text.IsToken token := by
    rw [toList_toolNames]
    exact fun _ => Text.isToken_of_mem_commaTokens
  have read : Text.commaTokens ([] ++ tools.toList) = data.toolNames.map String.toList :=
    Text.commaTokens_of_lists listed each (by simp)
  rw [toList_toolNames] at read
  exact congrArg (List.map String.ofList) read

theorem toolNames_readsTools (data : AgentData) : ReadsTools data where
  tokens := fun _ => isToken_of_mem_toolNames
  blank := by
    intro tools blank
    rw [toolNames, Text.commaTokens_blanks (List.all_eq_true.mp blank), List.map_nil]
  single := by
    intro before name after blankBefore isToken blankAfter
    have read := Text.commaTokens_spaced isToken (List.all_eq_true.mp blankBefore)
      (List.all_eq_true.mp blankAfter)
    rw [toolNames, String.toList_append, String.toList_append, read, List.map_singleton,
      String.ofList_toList]
  appended := by
    intro left right
    have comma : (left ++ "," ++ right).toList = left.toList ++ ',' :: right.toList := by simp
    rw [toolNames, comma, Text.commaTokens_append, List.map_append]
    rfl
  reread := fun _ => toolNames_of_lists
  rejoined := by
    apply toolNames_of_lists
    rw [Text.joinWith, String.toList_intercalate]
    exact Text.lists_intercalate _

end AgentData

end CrewCanvas
