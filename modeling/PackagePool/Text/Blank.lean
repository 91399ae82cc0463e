/-!
# Blank characters

Blank means the Unicode property White_Space, which is wider than the four blanks of
`Char.isWhitespace` and narrower than what looks empty on a screen: the zero-width space and the
byte-order mark are not blank.  A text is *trimmed* by dropping blanks at both ends, its *fields*
are its maximal runs of other characters, and a *word* is a text that is its own only field.
-/

namespace PackagePool.Text

/-- The characters with the property White_Space. -/
def isBlank (c : Char) : Bool :=
  let n := c.toNat
  (0x09 ≤ n && n ≤ 0x0D) || n == 0x20 || n == 0x85 || n == 0xA0 || n == 0x1680 ||
    (0x2000 ≤ n && n ≤ 0x200A) || n == 0x2028 || n == 0x2029 || n == 0x202F || n == 0x205F ||
    n == 0x3000

/-- Drops the blanks at the end. -/
def dropBlankEnd (cs : List Char) : List Char :=
  (cs.reverse.dropWhile isBlank).reverse

/-- Drops the blanks at both ends. -/
def trimChars (cs : List Char) : List Char :=
  dropBlankEnd (cs.dropWhile isBlank)

/-- A text without the blanks at its two ends. -/
def trim (s : String) : String :=
  String.ofList (trimChars s.toList)

/-- The maximal runs of characters that are not blank, in order. -/
def fields (s : String) : List String :=
  ((s.toList.splitOnP isBlank).filter (fun run => !run.isEmpty)).map String.ofList

/-- A word is not empty and holds no blank. -/
def IsWord (s : String) : Prop :=
  s ≠ "" ∧ ∀ c ∈ s.toList, isBlank c = false

instance (s : String) : Decidable (IsWord s) :=
  inferInstanceAs (Decidable (_ ∧ _))

/-- Whether some character is blank. -/
def hasBlank (s : String) : Bool :=
  s.toList.any isBlank

theorem isBlank_of_isWhitespace {c : Char} (h : c.isWhitespace = true) : isBlank c = true := by
  simp only [Char.isWhitespace, Bool.or_eq_true, decide_eq_true_eq] at h
  rcases h with ((rfl | rfl) | rfl) | rfl <;> decide

theorem isWord_iff {s : String} : IsWord s ↔ s ≠ "" ∧ hasBlank s = false := by
  simp [IsWord, hasBlank]

end PackagePool.Text
