import PackagePool.Version.Segment

/-!
# Segments one at a time

The segments of a version text, handed out call by call.  A call goes on at the byte where the call
before it has stopped.  It passes over separators up to the next run, goes on to the end of that
run, and cuts the run out of the text.  Offsets count bytes, so it has to be seen that a run is
never cut inside a character; if it were, the call would have no segment to answer with.
-/

namespace PackagePool.Version

open Text

namespace Scanner

/-- Moves on from an offset as long as the byte there has a property. -/
def advance (p : UInt8 → Bool) (bytes : List UInt8) (pos : Nat) : Nat :=
  if h : pos < bytes.length then
    if p bytes[pos] then advance p bytes (pos + 1) else pos
  else pos
termination_by bytes.length - pos

/-- The next run from an offset on, if there is one, and the offset behind it. -/
def nextRun (bytes : List UInt8) (pos : Nat) : Option Span × Nat :=
  let start := advance (fun b => RunKind.ofByte? b = none) bytes pos
  if h : start < bytes.length then
    let kind := if RunKind.ofByte? bytes[start] = some .digits then .digits else .letters
    let stop := advance (fun b => RunKind.ofByte? b = some kind) bytes start
    (some ⟨kind, start, stop⟩, stop)
  else (none, start)

/-- What a call answers with. -/
inductive Answer
  /-- A segment, and where it was cut out. -/
  | segment (span : Span) (x : Segment)
  /-- There is no run left. -/
  | finished
  /-- A run starts or ends inside a character. -/
  | badCut (span : Span)
  deriving DecidableEq, Repr

/-- Cuts a run out of a text. -/
def cut (s : String) (span : Span) : Answer :=
  match slice? s.toList span.start span.stop with
  | some run => .segment span (.ofRun span.kind run)
  | none => .badCut span

/-- A call that goes on from an offset, and the offset at which it stops. -/
def call (s : String) (pos : Nat) : Answer × Nat :=
  match nextRun (utf8 s.toList) pos with
  | (some span, stop) => (cut s span, stop)
  | (none, stop) => (.finished, stop)

/-- The answer to the call behind `n` others, the first of which goes on from `pos`. -/
def answerFrom (s : String) (pos : Nat) : Nat → Answer
  | 0 => (call s pos).1
  | n + 1 => answerFrom s (call s pos).2 n

/-- The answer to the call behind `n` others. -/
def answer (s : String) (n : Nat) : Answer :=
  answerFrom s 0 n

end Scanner

end PackagePool.Version
