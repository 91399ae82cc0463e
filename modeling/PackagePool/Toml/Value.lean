/-!
# TOML values

A document is a table: a list of keys with their values, in the order in which the keys were
written.  A table remembers how it came about, since that decides what later statements of the
document may still add to it.
-/

namespace PackagePool.Toml

/-- How a table came about. -/
inductive TableOrigin
  /-- by a header of its own -/
  | header
  /-- as a step on the way to a deeper header -/
  | implied
  /-- by a dotted key -/
  | dotted
  /-- as a value in braces, to which nothing can be added -/
  | inline
  deriving DecidableEq, Repr

/-- A value of a document.  Numbers with a fraction or an exponent, and dates and times, are kept as
they were written. -/
inductive Value
  | string (s : String)
  | integer (n : Int)
  | float (text : String)
  | boolean (b : Bool)
  | dateTime (text : String)
  | array (items : List Value)
  | table (origin : TableOrigin) (entries : List (String × Value))
  | tables (elements : List (List (String × Value)))
  deriving Repr

/-- The keys of a table with their values, in the order in which they were written. -/
abbrev Entries :=
  List (String × Value)

end PackagePool.Toml
