import PackagePool.Toml.Scalar
import PackagePool.Toml.Table

/-!
# TOML documents

A document is read line by line into statements, which are headers and assignments; carried out in
order, they build the table of the document.  A text is no document if a line cannot be read or a
statement cannot be carried out; `parse` does not tell the two apart.
-/

namespace PackagePool.Toml

/-! ## Values -/

mutual

/-- A value.  The fuel bounds the number of steps, `room` the depth to which values may still
nest. -/
def value : Nat → Nat → Reader Value
  | 0, _, _ => none
  | fuel + 1, room, cs =>
    match cs with
    | '"' :: _ | '\'' :: _ =>
      (string cs).map fun (text, rest) => (.string (String.ofList text), rest)
    | '[' :: rest =>
      match room with
      | 0 => none
      | room + 1 => (arrayItems fuel room rest).map fun (items, rest) => (.array items, rest)
    | '{' :: rest =>
      match room with
      | 0 => none
      | room + 1 =>
        match skipSpace rest with
        | '}' :: rest => some (.table .inline [], rest)
        | rest =>
          (inlineEntries fuel room [] rest).map fun (entries, rest) =>
            (.table .inline entries, rest)
    | cs => scalar cs

/-- The items of an array up to its closing bracket; a comma may stand behind the last one. -/
def arrayItems : Nat → Nat → Reader (List Value)
  | 0, _, _ => none
  | fuel + 1, room, cs =>
    match skipFill false cs with
    | ']' :: rest => some ([], rest)
    | cs =>
      match value fuel room cs with
      | none => none
      | some (item, rest) =>
        match skipFill false rest with
        | ']' :: rest => some ([item], rest)
        | ',' :: rest =>
          (arrayItems fuel room rest).map fun (items, rest) => (item :: items, rest)
        | _ => none

/-- The assignments of a table in braces up to its closing brace, added to `entries`. -/
def inlineEntries : Nat → Nat → Entries → Reader Entries
  | 0, _, _, _ => none
  | fuel + 1, room, entries, cs =>
    match key cs with
    | some (path, '=' :: rest) =>
      match value fuel room (skipSpace rest) with
      | none => none
      | some (item, rest) =>
        match assign .inline entries path item with
        | none => none
        | some entries =>
          match skipSpace rest with
          | '}' :: rest => some (entries, rest)
          | ',' :: rest => inlineEntries fuel room entries rest
          | _ => none
    | _ => none

end

/-! ## Statements -/

/-- What one line of a document says. -/
inductive Statement
  | assign (path : List String) (value : Value)
  | table (path : List String)
  | element (path : List String)

/-- The text behind the brackets that close a header, and behind its line. -/
def afterHeader? (brackets : List Char) (cs : List Char) : Option (List Char) :=
  if brackets.isPrefixOf cs then lineEnd? (cs.drop brackets.length) else none

/-- One line, which starts with no space: a statement, or nothing on an empty line. -/
def line (cs : List Char) : Option (Option Statement × List Char) :=
  match cs with
  | '#' :: _ | '\n' :: _ | '\r' :: _ => (lineEnd? cs).map (none, ·)
  | '[' :: '[' :: rest => do
    let (path, rest) ← key rest
    return (some (.element path), ← afterHeader? [']', ']'] rest)
  | '[' :: rest => do
    let (path, rest) ← key rest
    return (some (.table path), ← afterHeader? [']'] rest)
  | cs => do
    let (path, rest) ← key cs
    let rest := skipSpace (← expect '=' rest)
    let (item, rest) ← value (2 * rest.length + 2) (nestingLimit - 1) rest
    return (some (.assign path item), ← lineEnd? rest)

/-- The statements of a text.  The fuel bounds the number of lines. -/
def statements : Nat → List Char → Option (List Statement)
  | 0, _ => none
  | fuel + 1, cs =>
    match skipSpace cs with
    | [] => some []
    | cs =>
      match line cs with
      | none => none
      | some (statement, rest) => (statements fuel rest).map (statement.toList ++ ·)

/-! ## Building the table -/

/-- The document as far as it has been built, and the path of the table that assignments go to. -/
structure Draft where
  root : Entries
  current : List String

/-- Carries out one statement. -/
def Draft.add (draft : Draft) : Statement → Option Draft
  | .table path => (openTable draft.root path).map (⟨·, path⟩)
  | .element path => (openElement draft.root path).map (⟨·, path⟩)
  | .assign path item =>
    (updateAt false (fun origin entries => Toml.assign origin entries path item) .header draft.root
      draft.current).map (⟨·, draft.current⟩)

/-- The table that a list of statements builds. -/
def build (list : List Statement) : Option Entries :=
  (list.foldlM Draft.add ⟨[], []⟩).map Draft.root

/-- A byte-order mark at the start of a text is no part of it. -/
def dropByteOrderMark : List Char → List Char
  | '\uFEFF' :: rest => rest
  | cs => cs

/-- The table of a document. -/
def parse (text : String) : Option Entries :=
  let cs := dropByteOrderMark text.toList
  (statements (cs.length + 1) cs).bind build

end PackagePool.Toml
