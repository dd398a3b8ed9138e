/-
Reading settings from TOML.

Unknown keys are skipped, and what is left out keeps its default.  A group of
settings may also be an array of its values in the order of declaration.
-/

import CrewCanvas.Error
import CrewCanvas.Number.Word
import CrewCanvas.Settings.Basic
import CrewCanvas.Toml.Document

namespace CrewCanvas

namespace Toml.Item

mutual

/-- Whether an item can be skipped: its numbers are in range. -/
def isReadable : Item → Bool
  | .integer value => Word.fits 128 value
  | .real inRange => inRange
  | .array items => areReadable items
  | .tables items => areReadable items
  | .table _ entries => entriesAreReadable entries
  | _ => true

def areReadable : List Item → Bool
  | [] => true
  | item :: rest => item.isReadable && areReadable rest

def entriesAreReadable : List (String × Item) → Bool
  | [] => true
  | (_, item) :: rest => item.isReadable && entriesAreReadable rest

end

def text? : Item → Option String
  | .text value => some value
  | _ => none

def bool? : Item → Option Bool
  | .bool value => some value
  | _ => none

def items? : Item → Option (List Item)
  | .array items => some items
  | .tables items => some items.reverse
  | _ => none

def isEmpty : Item → Bool
  | .array items => items.isEmpty
  | .table _ entries => entries.isEmpty
  | _ => false

end Toml.Item

structure Setting (α : Type) where
  key : String
  set : α → Toml.Item → Option α

namespace Setting

def ofEntries {α : Type} (known : List (Setting α)) (group : α) : Toml.Entries → Option α
  | [] => some group
  | (key, item) :: rest =>
      match known.find? (fun setting => setting.key = key) with
      | none => if item.isReadable then ofEntries known group rest else none
      | some setting => (setting.set group item).bind (fun group => ofEntries known group rest)

def ofItems {α : Type} (group : α) : List (Setting α) → List Toml.Item → Option α
  | setting :: known, item :: items =>
      (setting.set group item).bind (fun group => ofItems group known items)
  | _, _ => some group

/-- Reads a group from a table, an array, or a moment, which has no settings. -/
def read? {α : Type} (known : List (Setting α)) (default : α) (item : Toml.Item) : Option α :=
  match item, item.items? with
  | .table _ entries, _ => ofEntries known default entries
  | .moment, _ => some default
  | _, some items => ofItems default known items
  | _, none => none

end Setting

namespace CompileSettings

def known : List (Setting CompileSettings) :=
  [⟨"crew_name", fun group item => item.text?.map ({ group with crewName := · })⟩,
    ⟨"agents_config", fun group item => item.text?.map ({ group with agentsPath := · })⟩,
    ⟨"tasks_config", fun group item => item.text?.map ({ group with tasksPath := · })⟩,
    ⟨"verbose", fun group item => item.bool?.map ({ group with verbose := · })⟩]

end CompileSettings

namespace IdStrategy

/-- A strategy is its name, or a table of its name with nothing in it. -/
def read? : Toml.Item → Option IdStrategy
  | .text name => ofName? name
  | .table _ [(name, content)] => if content.isEmpty then ofName? name else none
  | _ => none

end IdStrategy

namespace IdSettings

def known : List (Setting IdSettings) :=
  [⟨"strategy", fun group item => (IdStrategy.read? item).map ({ group with strategy := · })⟩,
    ⟨"prefix", fun group item => item.text?.map ({ group with lead := · })⟩]

end IdSettings

namespace Settings

def known : List (Setting Settings) :=
  [⟨"compile", fun group item =>
      (Setting.read? CompileSettings.known {} item).map ({ group with compile := · })⟩,
    ⟨"ids", fun group item =>
      (Setting.read? IdSettings.known {} item).map ({ group with ids := · })⟩]

def ofText (text : String) : Except Error Settings :=
  match (Toml.ofText? text).bind (Setting.read? known {}) with
  | some settings => .ok settings
  | none => .error (.ofToml "invalid settings")

inductive File
  | missing
  | bytes (content : ByteArray)

def firstPart (path : String) : String :=
  String.ofList ((path.toList.dropWhile (· == '/')).takeWhile (· != '/'))

/-- Why a path that leads to no file cannot be read.  A path holds no null
character, at most 4095 bytes, and at most 255 bytes in the part looked up first. -/
def missingReason (path : String) : String :=
  if path.toList.any (fun c => c.toNat == 0) then "file name contained an unexpected NUL byte"
  else if 4095 < path.utf8ByteSize ∨ 255 < (firstPart path).utf8ByteSize then
    "File name too long (os error 36)"
  else "No such file or directory (os error 2)"

def ofFile (path : String) : File → Except Error Settings
  | .missing => .error (.settingsUnread path (missingReason path))
  | .bytes content =>
      match String.fromUTF8? content with
      | none => .error (.settingsUnread path "stream did not contain valid UTF-8")
      | some text => ofText text

end Settings

end CrewCanvas
