import PackagePool.Text.Numeral

/-!
# Lexical elements of TOML

Blank space, comments, line ends, strings and keys.  A reader of an element takes the characters
that are left and answers with the element and the characters behind it, or with nothing if they do
not start with the element.
-/

namespace PackagePool.Toml

/-- Reads an element from the start of a text. -/
abbrev Reader (α : Type) :=
  List Char → Option (α × List Char)

/-! ## Space and line ends -/

/-- Space within a line. -/
def isSpace (c : Char) : Bool :=
  c == ' ' || c == '\t'

/-- The characters that may stand in strings and comments: the tab and all others that are no
control characters of ASCII. -/
def isText (c : Char) : Bool :=
  c == '\t' || (0x20 ≤ c.toNat && c.toNat != 0x7F)

/-- Skips the space at the start. -/
def skipSpace (cs : List Char) : List Char :=
  cs.dropWhile isSpace

/-- The characters behind a line feed, or behind a carriage return and a line feed. -/
def newline? : List Char → Option (List Char)
  | '\n' :: rest => some rest
  | '\r' :: '\n' :: rest => some rest
  | _ => none

/-- Skips a comment at the start, up to the first character that may not stand in it. -/
def skipComment : List Char → List Char
  | '#' :: rest => rest.dropWhile isText
  | cs => cs

/-- The characters behind the end of a line, which may be the end of the text.  Only space and a
comment may stand before it. -/
def lineEnd? (cs : List Char) : Option (List Char) :=
  match skipComment (skipSpace cs) with
  | [] => some []
  | rest => newline? rest

/-- Skips space, comments and line ends between the items of an array.  The flag tells whether a
comment is being skipped; a comment stops at a character that may not stand in it. -/
def skipFill (comment : Bool) : List Char → List Char
  | [] => []
  | '\r' :: '\n' :: rest => skipFill false rest
  | c :: rest =>
    if c = '\n' then skipFill false rest
    else if comment then if isText c then skipFill true rest else c :: rest
    else if isSpace c then skipFill false rest
    else if c = '#' then skipFill true rest
    else c :: rest

/-! ## Strings -/

/-- The value of a hexadecimal digit. -/
def hexValue? (c : Char) : Option Nat :=
  if c.isDigit then some (c.toNat - '0'.toNat)
  else if 'a' ≤ c ∧ c ≤ 'f' then some (c.toNat - 'a'.toNat + 10)
  else if 'A' ≤ c ∧ c ≤ 'F' then some (c.toNat - 'A'.toNat + 10)
  else none

/-- The value of a row of hexadecimal digits. -/
def hexNumber? (digits : List Char) : Option Nat :=
  digits.foldlM (fun acc c => (hexValue? c).map (16 * acc + ·)) 0

/-- The character given by `count` hexadecimal digits. -/
def codePoint (count : Nat) : Reader Char := fun cs =>
  let digits := cs.take count
  match hexNumber? digits with
  | some n =>
    if digits.length = count ∧ n.isValidChar then some (Char.ofNat n, cs.drop count) else none
  | none => none

/-- The character that an escape stands for, read behind its backslash. -/
def escape : Reader Char
  | 'b' :: rest => some ('\x08', rest)
  | 't' :: rest => some ('\t', rest)
  | 'n' :: rest => some ('\n', rest)
  | 'f' :: rest => some ('\x0C', rest)
  | 'r' :: rest => some ('\r', rest)
  | '"' :: rest => some ('"', rest)
  | '\\' :: rest => some ('\\', rest)
  | 'u' :: rest => codePoint 4 rest
  | 'U' :: rest => codePoint 8 rest
  | _ => none

/-- The rest of a basic string, read behind its opening quote.  The fuel bounds the number of
characters. -/
def basicBody : Nat → Reader (List Char)
  | 0, _ => none
  | _ + 1, [] => none
  | fuel + 1, c :: rest =>
    if c = '"' then some ([], rest)
    else if c = '\\' then
      match escape rest with
      | some (d, rest) => (basicBody fuel rest).map fun (body, rest) => (d :: body, rest)
      | none => none
    else if isText c then (basicBody fuel rest).map fun (body, rest) => (c :: body, rest)
    else none

/-- The rest of a literal string, read behind its opening apostrophe. -/
def literalBody : Reader (List Char)
  | [] => none
  | c :: rest =>
    if c = '\'' then some ([], rest)
    else if isText c then (literalBody rest).map fun (body, rest) => (c :: body, rest)
    else none

/-- Skips the space and the line ends behind a backslash at the end of a line. -/
def skipBlankLines : List Char → List Char
  | [] => []
  | '\r' :: '\n' :: rest => skipBlankLines rest
  | c :: rest => if isSpace c || c == '\n' then skipBlankLines rest else c :: rest

/-- What a backslash in a multi-line string stands for: nothing at the end of a line, where it also
swallows the blank lines that follow, and an escaped character elsewhere. -/
def multiLineEscape : Reader (List Char) := fun cs =>
  match newline? (skipSpace cs) with
  | some rest => some ([], skipBlankLines rest)
  | none => (escape cs).map fun (c, rest) => ([c], rest)

/-- The rest of a multi-line string, read behind its opening quotes.  Three quotes close it; one or
two more in front of them, as anywhere in the string, belong to its text. -/
def multiLineBody (quote : Char) (escapes : Bool) : Nat → Reader (List Char)
  | 0, _ => none
  | _ + 1, [] => none
  | fuel + 1, c :: rest =>
    let continueWith (text rest : List Char) : Option (List Char × List Char) :=
      (multiLineBody quote escapes fuel rest).map fun (body, rest) => (text ++ body, rest)
    if c = quote then
      let quotes := c :: rest.takeWhile (· == quote)
      let rest := rest.dropWhile (· == quote)
      if quotes.length < 3 then continueWith quotes rest
      else if quotes.length ≤ 5 then some (quotes.drop 3, rest)
      else none
    else if escapes && c == '\\' then
      match multiLineEscape rest with
      | some (text, rest) => continueWith text rest
      | none => none
    else if isText c then continueWith [c] rest
    else
      match newline? (c :: rest) with
      | some rest => continueWith ['\n'] rest
      | none => none

/-- A line end right behind the opening quotes of a multi-line string is no part of it. -/
def dropFirstNewline (cs : List Char) : List Char :=
  (newline? cs).getD cs

/-- A string on one line, basic or literal. -/
def plainString : Reader (List Char)
  | '"' :: rest => basicBody (rest.length + 1) rest
  | '\'' :: rest => literalBody rest
  | _ => none

/-- A string of any of the four kinds. -/
def string : Reader (List Char)
  | '"' :: '"' :: '"' :: rest =>
    multiLineBody '"' true (rest.length + 1) (dropFirstNewline rest)
  | '\'' :: '\'' :: '\'' :: rest =>
    multiLineBody '\'' false (rest.length + 1) (dropFirstNewline rest)
  | cs => plainString cs

/-! ## Keys -/

/-- The characters of a key without quotes. -/
def isBareKeyChar (c : Char) : Bool :=
  c.isAlphanum || c == '_' || c == '-'

/-- One part of a key: bare, or quoted as a string on one line. -/
def keyPart : Reader String
  | [] => none
  | c :: rest =>
    if c = '"' ∨ c = '\'' then
      (plainString (c :: rest)).map fun (text, rest) => (String.ofList text, rest)
    else
      let bare := (c :: rest).takeWhile isBareKeyChar
      if bare.isEmpty then none
      else some (String.ofList bare, (c :: rest).dropWhile isBareKeyChar)

/-- Parts joined by dots, with space around each.  The fuel bounds the number of parts. -/
def keyParts : Nat → Reader (List String)
  | 0, _ => none
  | fuel + 1, cs =>
    match keyPart (skipSpace cs) with
    | none => none
    | some (part, rest) =>
      match skipSpace rest with
      | '.' :: rest => (keyParts fuel rest).map fun (parts, rest) => (part :: parts, rest)
      | rest => some ([part], rest)

/-- Keys and values nest less deep than this. -/
def nestingLimit : Nat :=
  80

/-- A key as its path of parts. -/
def key : Reader (List String) :=
  keyParts (nestingLimit - 1)

end PackagePool.Toml
