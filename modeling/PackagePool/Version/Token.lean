import PackagePool.Version.Segment

/-!
# Tokens of a version text

The meaning of a version text in terms of characters and numbers: its tokens are its maximal runs of
ASCII digits, read as natural numbers of any size, and its maximal runs of ASCII letters.  This is
the reading that the bytewise comparison of `PackagePool.Version.Segment` has to agree with.
-/

namespace PackagePool.Version

/-- The kind of run a character belongs to; none for a separator. -/
def RunKind.ofChar? (c : Char) : Option RunKind :=
  if c.isDigit then some .digits else if c.isAlpha then some .letters else none

/-- A digit run by its value, or a letter run by its characters. -/
inductive Token
  | number (value : Nat)
  | word (letters : List Char)
  deriving DecidableEq, Repr

namespace Token

/-- The value of a run of digits, in base ten. -/
def value (digits : List Char) : Nat :=
  digits.foldl (fun acc c => 10 * acc + (c.toNat - '0'.toNat)) 0

/-- The token of a run of characters of one kind. -/
def ofRun? (run : List Char) : Option Token :=
  match run.head?.bind RunKind.ofChar? with
  | some .digits => some (number (value run))
  | some .letters => some (word run)
  | none => none

/-- Numbers compare by value, words bytewise, and a number is above every word. -/
def compare : Token → Token → Ordering
  | number m, number n => Ord.compare m n
  | word x, word y => Ord.compare x y
  | number _, word _ => .gt
  | word _, number _ => .lt

end Token

/-- The longest runs of characters of one kind, separators included. -/
def charRuns (cs : List Char) : List (List Char) :=
  cs.splitBy fun a b => RunKind.ofChar? a == RunKind.ofChar? b

/-- The tokens of a version text, in order. -/
def tokens (s : String) : List Token :=
  (charRuns s.toList).filterMap Token.ofRun?

/-- Token lists compare lexicographically; a proper initial part is smaller. -/
def compareTokens : List Token → List Token → Ordering :=
  List.compareLex Token.compare

end PackagePool.Version
