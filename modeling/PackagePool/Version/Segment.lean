import PackagePool.Text.Bytes

/-!
# Segments of a version text

A version text is read as a list of segments: its maximal runs of ASCII digits and its maximal runs
of ASCII letters.  All other characters only separate.  The runs are found on the bytes of the text
(`spans`) and then cut out of it; since every byte of a run is a whole character, a run always
starts and ends between characters.

Two version texts compare segment by segment.  Digit runs compare as numbers of any size, letter
runs bytewise, a digit run is newer than a letter run, and the text that runs out first is older.
-/

namespace PackagePool.Version

open PackagePool.Text

/-- The two kinds of bytes that form runs. -/
inductive RunKind
  | digits
  | letters
  deriving DecidableEq, Repr, Hashable

/-- The kind of run a byte belongs to; none for a separator. -/
def RunKind.ofByte? (b : UInt8) : Option RunKind :=
  if 0x30 ≤ b ∧ b ≤ 0x39 then some .digits
  else if (0x41 ≤ b ∧ b ≤ 0x5A) ∨ (0x61 ≤ b ∧ b ≤ 0x7A) then some .letters
  else none

/-- A run of bytes of one kind, from offset `start` up to offset `stop`. -/
structure Span where
  kind : RunKind
  start : Nat
  stop : Nat
  deriving DecidableEq, Repr

/-- Puts the byte at offset `pos` in front of the runs that follow it: it extends a run of its kind
that starts right behind it, and is a run of its own otherwise. -/
def Span.extend (kind : RunKind) (pos : Nat) : List Span → List Span
  | [] => [⟨kind, pos, pos + 1⟩]
  | span :: later =>
    if span.kind = kind ∧ span.start = pos + 1 then ⟨kind, pos, span.stop⟩ :: later
    else ⟨kind, pos, pos + 1⟩ :: span :: later

/-- The maximal runs of `bytes`, the first of which stands at offset `pos`. -/
def spansFrom (pos : Nat) : List UInt8 → List Span
  | [] => []
  | b :: rest =>
    match RunKind.ofByte? b with
    | none => spansFrom (pos + 1) rest
    | some kind => Span.extend kind pos (spansFrom (pos + 1) rest)

/-- The maximal runs of digit bytes and of letter bytes, in order. -/
def spans (bytes : List UInt8) : List Span :=
  spansFrom 0 bytes

/-- One unit of version comparison.  A digit run is kept without its leading zeros, so it is empty
exactly if all its digits are zero. -/
inductive Segment
  | numeric (digits : List Char)
  | alpha (letters : List Char)
  deriving DecidableEq, Repr

namespace Segment

/-- The segment of a run. -/
def ofRun (kind : RunKind) (run : List Char) : Segment :=
  match kind with
  | .digits => numeric (run.dropWhile (· == '0'))
  | .letters => alpha run

/-- The order of segments.  Without leading zeros the longer digit run is the bigger number. -/
def compare : Segment → Segment → Ordering
  | numeric x, numeric y => (Ord.compare x.length y.length).then (Ord.compare x y)
  | alpha x, alpha y => Ord.compare x y
  | numeric _, alpha _ => .gt
  | alpha _, numeric _ => .lt

instance : Ord Segment := ⟨Segment.compare⟩

instance : Hashable Segment where
  hash
    | numeric digits => mixHash 0 (hash (String.ofList digits))
    | alpha letters => mixHash 1 (hash (String.ofList letters))

end Segment

/-- The segments of a version text, in order. -/
def segments (s : String) : List Segment :=
  (spans (utf8 s.toList)).filterMap fun span =>
    (slice? s.toList span.start span.stop).map (Segment.ofRun span.kind)

/-- Whether a text has any segment. -/
def hasSegment (s : String) : Bool :=
  !(segments s).isEmpty

/-- The order of version texts. -/
def compareText (a b : String) : Ordering :=
  List.compareLex Segment.compare (segments a) (segments b)

end PackagePool.Version
