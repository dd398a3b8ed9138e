/-
TOML items and the tables that hold them.

A table remembers how it came about, because that decides what may still be added
to it: a table with a header of its own is never opened again by a dotted key, a
table that only lies on the path of a header may get its header later, and an
inline table is closed.
-/

namespace CrewCanvas.Toml

inductive TableKind
  /-- Opened by its own header. -/
  | header
  /-- On the path of another header. -/
  | path
  /-- On the path of a dotted key. -/
  | dotted
  | inline
  deriving DecidableEq

inductive Item
  | text (value : String)
  | bool (value : Bool)
  | integer (value : Int)
  /-- A number with a fraction, an exponent or no value, and whether it is in the
  range of binary64. -/
  | real (inRange : Bool)
  | moment
  | array (items : List Item)
  /-- The tables of a repeated header, the newest first. -/
  | tables (items : List Item)
  | table (kind : TableKind) (entries : List (String × Item))

namespace Item

instance : Inhabited Item := ⟨moment⟩

def root : Item := table .header []

end Item

abbrev Entries := List (String × Item)

def alter (key : String) (change : Option Item → Option Item) : Entries → Option Entries
  | [] => (change none).map (fun item => [(key, item)])
  | (other, item) :: rest =>
      if other = key then (change (some item)).map (fun item => (other, item) :: rest)
      else (alter key change rest).map ((other, item) :: ·)

/-- Changes the table at the end of a path.  Tables that are missing on the way
are made; a repeated header leads into its newest table. -/
def within (dotted : Bool) (change : Item → Option Item) : List String → Item → Option Item
  | [], item => change item
  | key :: path, .table kind entries =>
      (alter key
        (fun
          | none => within dotted change path (.table (if dotted then .dotted else .path) [])
          | some (.table inner innerEntries) =>
              if inner = .inline ∨ (dotted ∧ inner = .header) then none
              else within dotted change path (.table inner innerEntries)
          | some (.tables (newest :: before)) =>
              (within dotted change path newest).map (fun newest => .tables (newest :: before))
          | some _ => none)
        entries).map (.table kind)
  | _ :: _, _ => none

def addEntry (key : String) (value : Item) : Item → Option Item
  | .table kind entries =>
      (alter key
        (fun
          | none => some value
          | some _ => none)
        entries).map (.table kind)
  | _ => none

/-- Assigns a value to a key, which may be dotted.  The last table of a dotted key
must be made by dotted keys. -/
def assign (path : List String) (key : String) (value : Item) : Item → Option Item :=
  within true
    (fun
      | .table kind entries =>
          if (kind = .dotted) = path.isEmpty then none else addEntry key value (.table kind entries)
      | _ => none)
    path

def openTable (path : List String) (key : String) : Item → Option Item :=
  within false
    (fun
      | .table kind entries =>
          (alter key
            (fun
              | none => some (.table .header [])
              | some (.table .path inner) => some (.table .header inner)
              | some _ => none)
            entries).map (.table kind)
      | _ => none)
    path

def repeatTable (path : List String) (key : String) : Item → Option Item :=
  within false
    (fun
      | .table kind entries =>
          (alter key
            (fun
              | none => some (.tables [.table .header []])
              | some (.tables before) => some (.tables (.table .header [] :: before))
              | some _ => none)
            entries).map (.table kind)
      | _ => none)
    path

/-! ### Documents -/

inductive Statement
  | header (repeated : Bool) (path : List String) (key : String)
  | assignment (path : List String) (key : String) (value : Item)

structure Builder where
  document : Item := Item.root
  current : List String := []

namespace Builder

def add? (builder : Builder) : Statement → Option Builder
  | .header repeated path key =>
      (if repeated then repeatTable path key builder.document
        else openTable path key builder.document).map
        (fun document => { document, current := path ++ [key] })
  | .assignment path key value =>
      (within false (assign path key value) builder.current builder.document).map
        (fun document => { builder with document })

end Builder

def build? (statements : List Statement) : Option Item :=
  (statements.foldlM Builder.add? {}).map Builder.document

end CrewCanvas.Toml
