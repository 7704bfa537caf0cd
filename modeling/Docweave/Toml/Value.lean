set_option autoImplicit false

/-! # Configuration tables

A configuration text makes a table of values under keys. A key is given once; a table can be given in
parts, but only in the ways that the rules below allow. -/

namespace Docweave.Toml

/-- How a table came about, which decides what may be added to it later. -/
inductive Origin where
  /-- It was named on the way to another table. -/
  | implied
  /-- It was named on the way to a key. -/
  | dotted
  /-- It has a header of its own. -/
  | header
  /-- It was written in braces, and is complete. -/
  | inline
deriving DecidableEq, Repr

/-- A value of a configuration. Numbers and times are told from the others but not read. -/
inductive Value where
  /-- A text. -/
  | text (data : String)
  /-- A truth value. -/
  | flag (data : Bool)
  /-- A number or a time. -/
  | scalar
  /-- A list of values. -/
  | list (items : List Value)
  /-- A table. -/
  | table (origin : Origin) (entries : List (String × Value))
  /-- A list of tables, each with a header of its own; the last one first. -/
  | tables (items : List (List (String × Value)))

/-- The values of a table under their keys, in the order in which they were given. -/
abbrev Entries := List (String × Value)

/-- Why a text is no configuration. -/
inductive Problem where
  /-- Something else stands where a part of the grammar is needed, with so many characters left. -/
  | unexpected (left : Nat)
  /-- A key or a table is given twice. -/
  | repeatedKey (key : String)
  /-- Values are nested too deep. -/
  | tooDeep
  /-- The value of a key is of another type than it should be. -/
  | wrongType (key : String)
deriving DecidableEq, Repr

/-- The wording of a problem. -/
def Problem.message : Problem → String
  | unexpected left => "unexpected input, " ++ toString left ++ " characters before the end"
  | repeatedKey key => "key '" ++ key ++ "' is given twice"
  | tooDeep => "values are nested too deep"
  | wrongType key => "the value of '" ++ key ++ "' has the wrong type"

namespace Entries

/-- The value of a key. -/
def get? (entries : Entries) (key : String) : Option Value :=
  (entries.find? (·.1 == key)).map (·.2)

/-- The entries with the value of a key replaced, or a new one at the end. -/
def put (key : String) (value : Value) : Entries → Entries
  | [] => [(key, value)]
  | entry :: rest =>
    if entry.1 = key then (key, value) :: rest else entry :: put key value rest

/-- The entries with a value under a key that may go through tables named on the way. Such tables are
made where they are missing, and of a list of tables the last one is meant; a table that has a header
or braces of its own cannot be gone through. The key itself goes into the table that the line belongs
to or into one that was named on the way to a key: `takesKeys` tells whether these entries are one of
the two. -/
def assign (takesKeys : Bool) (entries : Entries) (key : String) (more : List String)
    (value : Value) : Except Problem Entries :=
  match more with
  | [] =>
    if takesKeys && (get? entries key).isNone then .ok (put key value entries)
    else .error (.repeatedKey key)
  | next :: rest =>
    match get? entries key with
    | none =>
      (assign true [] next rest value).map fun inner => put key (.table .dotted inner) entries
    | some (.table .dotted inner) =>
      (assign true inner next rest value).map fun inner => put key (.table .dotted inner) entries
    | some (.table .implied inner) =>
      (assign false inner next rest value).map fun inner => put key (.table .implied inner) entries
    | some (.tables (last :: before)) =>
      (assign false last next rest value).map fun inner =>
        put key (.tables (inner :: before)) entries
    | some _ => .error (.repeatedKey key)

/-- The entries with a change made to the table at a path of headers. Tables on the way are made
where they are missing; of a list of tables the last one is meant. -/
def within (change : Entries → Except Problem Entries) (entries : Entries) :
    List String → Except Problem Entries
  | [] => change entries
  | key :: rest =>
    match get? entries key with
    | none => (within change [] rest).map fun inner => put key (.table .implied inner) entries
    | some (.table .inline _) => .error (.repeatedKey key)
    | some (.table origin inner) =>
      (within change inner rest).map fun inner => put key (.table origin inner) entries
    | some (.tables (last :: before)) =>
      (within change last rest).map fun inner => put key (.tables (inner :: before)) entries
    | some _ => .error (.repeatedKey key)

/-- The entries with a table that gets a header of its own. It may have been named before on the way
to another table. -/
def openTable (key : String) (entries : Entries) : Except Problem Entries :=
  match get? entries key with
  | none => .ok (put key (.table .header []) entries)
  | some (.table .implied inner) => .ok (put key (.table .header inner) entries)
  | some _ => .error (.repeatedKey key)

/-- The entries with one more table in a list of tables. -/
def openListed (key : String) (entries : Entries) : Except Problem Entries :=
  match get? entries key with
  | none => .ok (put key (.tables [[]]) entries)
  | some (.tables items) => .ok (put key (.tables ([] :: items)) entries)
  | some _ => .error (.repeatedKey key)

end Entries

end Docweave.Toml
