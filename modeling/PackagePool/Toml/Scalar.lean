import PackagePool.Toml.Lexical
import PackagePool.Toml.Value

/-!
# Scalars of TOML

Booleans, integers, floats, dates and times are written without quotes.  All of them are made of the
characters of `isScalarChar`, and none of the characters that may follow a value is among these, so
a scalar is read by classifying a whole run of them (`classify`).  Only a date may be continued
behind a space, by a time.
-/

namespace PackagePool.Toml

open Text (digitValue)

/-- The characters that scalars are made of. -/
def isScalarChar (c : Char) : Bool :=
  c.isAlphanum || c == '+' || c == '-' || c == '.' || c == '_' || c == ':'

/-! ## Numbers -/

/-- A row of digits without its underscores, each of which has to stand between two digits. -/
def ungroup? (isDigit : Char → Bool) : List Char → Option (List Char)
  | [] => none
  | [c] => if isDigit c then some [c] else none
  | c :: '_' :: rest => if isDigit c then (ungroup? isDigit rest).map (c :: ·) else none
  | c :: rest => if isDigit c then (ungroup? isDigit rest).map (c :: ·) else none

/-- The value of decimal digits. -/
def decimal (digits : List Char) : Nat :=
  digits.foldl (fun acc c => 10 * acc + digitValue c) 0

/-- Whether a number is negative, and the text behind its sign. -/
def cutSign : List Char → Bool × List Char
  | '-' :: rest => (true, rest)
  | '+' :: rest => (false, rest)
  | cs => (false, cs)

/-- The digits of a decimal integer without its sign: no zero stands in front. -/
def wholeDigits? : List Char → Option (List Char)
  | ['0'] => some ['0']
  | '0' :: _ => none
  | cs => ungroup? Char.isDigit cs

/-- The digits of an integer with the base they are written in. -/
def basedDigits? : List Char → Option (Nat × List Char)
  | '0' :: 'x' :: rest => (ungroup? (fun c => (hexValue? c).isSome) rest).map (16, ·)
  | '0' :: 'o' :: rest => (ungroup? (fun c => '0' ≤ c ∧ c ≤ '7') rest).map (8, ·)
  | '0' :: 'b' :: rest => (ungroup? (fun c => c == '0' || c == '1') rest).map (2, ·)
  | _ => none

/-- The least number above all integers of 64 bits with a sign. -/
def intBound : Nat :=
  9223372036854775808

/-- An integer that fits 64 bits.  Only decimal integers have a sign. -/
def integer? (cs : List Char) : Option Int :=
  match basedDigits? cs with
  | some (base, digits) =>
    let n := digits.foldl (fun acc c => base * acc + (hexValue? c).getD 0) 0
    if n < intBound then some n else none
  | none =>
    let (negative, whole) := cutSign cs
    match wholeDigits? whole with
    | none => none
    | some digits =>
      let n := decimal digits
      if negative then if n ≤ intBound then some (-n) else none
      else if n < intBound then some n
      else none

/-- Whether `mantissa · 10 ^ scale` rounds to infinity as a 64-bit float.  That starts halfway
between the largest float and the next power of two. -/
def roundsToInfinity (mantissa : Nat) (scale : Int) : Bool :=
  let magnitude : Int := (mantissa.repr.length : Int) + scale
  if mantissa = 0 ∨ magnitude < 309 then false
  else if 310 < magnitude then true
  else
    let bound := Nat.pow 2 1024 - Nat.pow 2 970
    if 0 ≤ scale then bound ≤ mantissa * Nat.pow 10 scale.toNat
    else bound * Nat.pow 10 (-scale).toNat ≤ mantissa

/-- An exponent, read behind its letter. -/
def exponent? (cs : List Char) : Option Int :=
  let (negative, digits) := cutSign cs
  (ungroup? Char.isDigit digits).map fun digits =>
    if negative then -(decimal digits : Int) else decimal digits

/-- Whether the text is a number with a fraction or an exponent.  A positive number may not round to
infinity. -/
def isDecimalFloat (cs : List Char) : Bool :=
  let (negative, unsigned) := cutSign cs
  let isExponentSign (c : Char) : Bool := c == 'e' || c == 'E'
  let mantissa := unsigned.takeWhile fun c => !isExponentSign c
  let scale := (unsigned.dropWhile fun c => !isExponentSign c).drop 1
  let hasExponent := unsigned.any isExponentSign
  let whole := mantissa.takeWhile (· != '.')
  let fraction := (mantissa.dropWhile (· != '.')).drop 1
  let hasFraction := mantissa.contains '.'
  let read := do
    let wholeDigits ← wholeDigits? whole
    let fractionDigits ← if hasFraction then ungroup? Char.isDigit fraction else some []
    let exponent ← if hasExponent then exponent? scale else some 0
    return negative ||
      !roundsToInfinity (decimal (wholeDigits ++ fractionDigits))
        (exponent - fractionDigits.length)
  (hasFraction || hasExponent) && read.getD false

/-- Infinity, or no number, with or without a sign. -/
def isSpecialFloat (cs : List Char) : Bool :=
  let name := (cutSign cs).2
  name == ['i', 'n', 'f'] || name == ['n', 'a', 'n']

/-! ## Dates and times -/

/-- A number of exactly `count` digits. -/
def digits (count : Nat) : Reader Nat := fun cs =>
  let read := cs.take count
  if read.length = count ∧ read.all Char.isDigit then some (decimal read, cs.drop count) else none

/-- The text behind a character that has to stand at the start. -/
def expect (c : Char) : List Char → Option (List Char)
  | [] => none
  | d :: rest => if c = d then some rest else none

/-- The number of days in a month, by the Gregorian calendar. -/
def daysInMonth (year month : Nat) : Nat :=
  if month = 2 then
    if year % 4 = 0 ∧ (year % 100 ≠ 0 ∨ year % 400 = 0) then 29 else 28
  else if month = 4 ∨ month = 6 ∨ month = 9 ∨ month = 11 then 30
  else 31

/-- The text behind a date. -/
def afterDate? (cs : List Char) : Option (List Char) := do
  let (year, cs) ← digits 4 cs
  let (month, cs) ← digits 2 (← expect '-' cs)
  let (day, cs) ← digits 2 (← expect '-' cs)
  if 1 ≤ month ∧ month ≤ 12 ∧ 1 ≤ day ∧ day ≤ daysInMonth year month then some cs else none

/-- The text behind hours and minutes. -/
def afterClock? (cs : List Char) : Option (List Char) := do
  let (hour, cs) ← digits 2 cs
  let (minute, cs) ← digits 2 (← expect ':' cs)
  if hour ≤ 23 ∧ minute ≤ 59 then some cs else none

/-- The text behind a time, which has seconds and may have a fraction of them.  A minute may have a
leap second. -/
def afterTime? (cs : List Char) : Option (List Char) := do
  let (second, cs) ← digits 2 (← expect ':' (← afterClock? cs))
  if 60 < second then none
  else
    match cs with
    | '.' :: rest =>
      if (rest.takeWhile Char.isDigit).isEmpty then none
      else some (rest.dropWhile Char.isDigit)
    | rest => some rest

/-- Whether the text is empty or an offset from universal time. -/
def isOffset : List Char → Bool
  | [] => true
  | ['Z'] | ['z'] => true
  | '+' :: rest | '-' :: rest => afterClock? rest == some []
  | _ => false

/-- Whether the text is a time with or without an offset. -/
def isOffsetTime (cs : List Char) : Bool :=
  (afterTime? cs).any isOffset

/-- Whether the text is a time, a date, or a date with a time behind a letter. -/
def isDateTime (cs : List Char) : Bool :=
  afterTime? cs == some [] ||
    match afterDate? cs with
    | some [] => true
    | some ('T' :: rest) | some ('t' :: rest) => isOffsetTime rest
    | _ => false

/-! ## Classification -/

/-- The scalar that a run of characters stands for. -/
def classify (run : List Char) : Option Value :=
  if run == ['t', 'r', 'u', 'e'] then some (.boolean true)
  else if run == ['f', 'a', 'l', 's', 'e'] then some (.boolean false)
  else if isDateTime run then some (.dateTime (String.ofList run))
  else if isDecimalFloat run || isSpecialFloat run then some (.float (String.ofList run))
  else (integer? run).map .integer

/-- Whether hours and a colon stand here, which after a date and a space begin its time. -/
def startsTime (cs : List Char) : Bool :=
  match digits 2 cs with
  | some (hour, ':' :: _) => hour ≤ 23
  | _ => false

/-- A scalar. -/
def scalar : Reader Value := fun cs =>
  let run := cs.takeWhile isScalarChar
  let rest := cs.dropWhile isScalarChar
  match rest with
  | ' ' :: later =>
    if afterDate? run == some [] && startsTime later then
      let time := later.takeWhile isScalarChar
      if isOffsetTime time then
        some (.dateTime (String.ofList (run ++ ' ' :: time)), later.dropWhile isScalarChar)
      else none
    else (classify run).map (·, rest)
  | _ => (classify run).map (·, rest)

end PackagePool.Toml
