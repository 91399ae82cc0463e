import PackagePool.Toml.Value

/-!
# Adding to tables

A document is built by adding to tables along paths of keys.  `updateAt` follows a path and changes
the table at its end; tables that are missing on the way are made.  The origins of the tables on the
way decide whether the path may be followed: a dotted key may not enter a table that a header has
made, and nothing may enter a table in braces.
-/

namespace PackagePool.Toml

/-- Gives a key that is there another value. -/
def replace (key : String) (value : Value) (entries : Entries) : Entries :=
  entries.map fun entry => if entry.1 = key then (key, value) else entry

/-- Changes the table at the end of `path`, below a table of the given origin.  A path that is
`dotted` comes from a dotted key, any other from a header; it enters the last table of an array of
tables. -/
def updateAt (dotted : Bool) (change : TableOrigin → Entries → Option Entries)
    (origin : TableOrigin) (entries : Entries) : List String → Option Entries
  | [] => change origin entries
  | key :: path =>
    match entries.lookup key with
    | none =>
      let origin : TableOrigin := if dotted then .dotted else .implied
      (updateAt dotted change origin [] path).map fun inner =>
        entries ++ [(key, .table origin inner)]
    | some (.table origin inner) =>
      if origin = .inline ∨ (dotted ∧ origin = .header) then none
      else
        (updateAt dotted change origin inner path).map fun inner =>
          replace key (.table origin inner) entries
    | some (.tables elements) =>
      match elements.getLast? with
      | none => none
      | some last =>
        (updateAt dotted change .header last path).map fun last =>
          replace key (.tables (elements.dropLast ++ [last])) entries
    | some _ => none

/-- Adds a key with a value to a table.  Only a dotted key adds to a table that dotted keys have
made, and it adds to no other. -/
def addEntry (throughDots : Bool) (key : String) (value : Value) (origin : TableOrigin)
    (entries : Entries) : Option Entries :=
  if (origin = .dotted ↔ throughDots = true) ∧ (entries.lookup key).isNone then
    some (entries ++ [(key, value)])
  else none

/-- Assigns a value to a key, given by its path, in a table of the given origin. -/
def assign (origin : TableOrigin) (entries : Entries) (path : List String) (value : Value) :
    Option Entries :=
  match path.getLast? with
  | none => none
  | some key =>
    updateAt true (addEntry (1 < path.length) key value) origin entries path.dropLast

/-- Opens the table that a header names.  A table that was only a step on the way to deeper headers
is opened with what it has, and moves behind the other keys. -/
def openTable (entries : Entries) (path : List String) : Option Entries :=
  match path.getLast? with
  | none => none
  | some key =>
    updateAt false (fun _ siblings =>
      match siblings.lookup key with
      | none => some (siblings ++ [(key, .table .header [])])
      | some (.table .implied inner) =>
        some (siblings.filter (fun entry => entry.1 != key) ++ [(key, .table .header inner)])
      | some _ => none) .header entries path.dropLast

/-- Adds an empty table to the array of tables that a header in double brackets names. -/
def openElement (entries : Entries) (path : List String) : Option Entries :=
  match path.getLast? with
  | none => none
  | some key =>
    updateAt false (fun _ siblings =>
      match siblings.lookup key with
      | none => some (siblings ++ [(key, .tables [[]])])
      | some (.tables elements) => some (replace key (.tables (elements ++ [[]])) siblings)
      | some _ => none) .header entries path.dropLast

end PackagePool.Toml
