import Mathlib.Data.List.TakeWhile
import PackagePool.Proofs.Version.TokenOrder
import PackagePool.Version.Scanner

/-!
# What the scan finds

Handed out call by call, the segments of a version text are those of its pieces.  A piece is a
maximal run of letters or of digits in its place, with what stands before and after it
(`Piece`); so it starts and ends between characters, although the scan counts bytes.

`nextRun_append` is the invariant of the calls: each finds the first of the runs that are left and
stops in front of the others.  The main result, `scan_exact`, says that the calls answer with the
segments of the pieces one after the other, that no run is cut inside a character, and that there
comes nothing behind the last one; that the pieces stand apart, in order, and hold exactly the
letters and digits of the text; and that they are what a division of the characters into runs
yields.
-/

namespace PackagePool.Version

open Text

namespace Scanner

/-! ## The loops -/

/-- The loop stops at the first byte that lacks the property. -/
theorem advance_append {p : UInt8 → Bool} {front back : List UInt8}
    (hfront : ∀ b ∈ front, p b = true) (hback : ∀ b ∈ back.head?, p b = false)
    (before : List UInt8) :
    advance p (before ++ (front ++ back)) before.length = (before ++ front).length := by
  induction front generalizing before with
  | nil =>
    rw [List.nil_append, List.append_nil, advance]
    cases back with
    | nil => simp
    | cons b back => simp [hback b rfl]
  | cons b front ih =>
    obtain ⟨hb, hfront⟩ := List.forall_mem_cons.1 hfront
    have hnext := ih hfront (before ++ [b])
    rw [List.length_append, List.length_singleton, List.append_assoc, List.append_assoc] at hnext
    rw [List.cons_append, advance, dif_pos (by simp)]
    simp only [List.getElem_append_right (Nat.le_refl _), Nat.sub_self, List.getElem_cons_zero, hb,
      if_true]
    exact hnext

theorem exists_extend_eq (kind : RunKind) (pos : Nat) (spans : List Span) :
    ∃ stop later, Span.extend kind pos spans = ⟨kind, pos, stop⟩ :: later ∧
      ∀ span ∈ later, span ∈ spans := by
  cases spans with
  | nil => exact ⟨_, [], rfl, by simp⟩
  | cons span spans =>
    rw [Span.extend]
    split
    · exact ⟨_, spans, rfl, fun span hspan => List.mem_cons_of_mem _ hspan⟩
    · exact ⟨_, span :: spans, rfl, fun span hspan => hspan⟩

theorem le_start_of_mem_spansFrom {bytes : List UInt8} {pos : Nat} {span : Span}
    (h : span ∈ spansFrom pos bytes) : pos ≤ span.start := by
  induction bytes generalizing pos with
  | nil => cases h
  | cons b bytes ih =>
    have hlater : span ∈ spansFrom (pos + 1) bytes → pos ≤ span.start := fun h =>
      Nat.le_of_succ_le (ih h)
    rw [spansFrom] at h
    split at h
    · exact hlater h
    · rename_i kind _
      obtain ⟨stop, later, hextend, hsub⟩ := exists_extend_eq kind pos (spansFrom (pos + 1) bytes)
      rw [hextend] at h
      rcases List.mem_cons.1 h with rfl | h
      · exact Nat.le_refl _
      · exact hlater (hsub span h)

/-- A run starts at an offset only if the byte there is of its kind. -/
theorem start_ne_of_head?_ne {kind : RunKind} {bytes : List UInt8}
    (h : ∀ b ∈ bytes.head?, RunKind.ofByte? b ≠ some kind) {pos : Nat} {span : Span}
    (hspan : span ∈ (spansFrom pos bytes).head?) (hkind : span.kind = kind) : span.start ≠ pos := by
  cases bytes with
  | nil => cases hspan
  | cons b bytes =>
    rw [spansFrom] at hspan
    split at hspan
    · have hle := le_start_of_mem_spansFrom (List.mem_of_mem_head? hspan)
      omega
    · rename_i other hb
      obtain ⟨stop, later, hextend, -⟩ := exists_extend_eq other pos (spansFrom (pos + 1) bytes)
      rw [hextend] at hspan
      obtain rfl := Option.some.inj hspan
      exact absurd (hb.trans (congrArg some hkind)) (h b rfl)

theorem nextRun_separators {seps : List UInt8} (hseps : ∀ b ∈ seps, RunKind.ofByte? b = none)
    (before : List UInt8) :
    nextRun (before ++ seps) before.length = (none, (before ++ seps).length) := by
  have hstart : advance (fun b => RunKind.ofByte? b = none) (before ++ (seps ++ []))
      before.length = (before ++ seps).length :=
    advance_append (fun b hb => decide_eq_true (hseps b hb)) (by simp) before
  rw [List.append_nil] at hstart
  simp only [nextRun, hstart, Nat.lt_irrefl, dite_false]

theorem nextRun_run {seps run later : List UInt8} {kind : RunKind}
    (hseps : ∀ b ∈ seps, RunKind.ofByte? b = none) (hne : run ≠ [])
    (hrun : ∀ b ∈ run, RunKind.ofByte? b = some kind)
    (hlater : ∀ b ∈ later.head?, RunKind.ofByte? b ≠ some kind) (before : List UInt8) :
    let start := (before ++ seps).length
    nextRun (before ++ (seps ++ (run ++ later))) before.length =
      (some ⟨kind, start, start + run.length⟩, start + run.length) := by
  obtain ⟨b, rest, rfl⟩ := List.exists_cons_of_ne_nil hne
  have hb : RunKind.ofByte? b = some kind := hrun b List.mem_cons_self
  have hstart : advance (fun b => RunKind.ofByte? b = none)
      (before ++ (seps ++ (b :: rest ++ later))) before.length = (before ++ seps).length :=
    advance_append (fun b hb => decide_eq_true (hseps b hb))
      (fun c hc => by obtain rfl := Option.some.inj hc; simp [hb]) before
  have hstop : advance (fun b => RunKind.ofByte? b = some kind)
      (before ++ seps ++ (b :: rest ++ later)) (before ++ seps).length =
      (before ++ seps).length + (b :: rest).length :=
    (advance_append (fun b hb => decide_eq_true (hrun b hb))
      (fun b hb => decide_eq_false (hlater b hb)) (before ++ seps)).trans List.length_append
  rw [← List.append_assoc] at hstart ⊢
  have hlt : (before ++ seps).length < (before ++ seps ++ (b :: rest ++ later)).length := by simp
  have hget : (before ++ seps ++ (b :: rest ++ later))[(before ++ seps).length] = b := by simp
  have hkind : (if RunKind.ofByte? b = some .digits then RunKind.digits else .letters) = kind := by
    rw [hb]
    cases kind <;> rfl
  simp only [nextRun, hstart, hlt, dite_true, hget, hkind, hstop]

/-- A call finds the first of the runs that are left, and stops in front of the others. -/
theorem nextRun_append (before rest : List UInt8) :
    (spansFrom before.length rest = [] ∧
      nextRun (before ++ rest) before.length = (none, (before ++ rest).length)) ∨
    ∃ span passed later, rest = passed ++ later ∧ span.stop = (before ++ passed).length ∧
      spansFrom before.length rest = span :: spansFrom span.stop later ∧
      nextRun (before ++ rest) before.length = (some span, span.stop) := by
  obtain ⟨seps, tail, rfl, hseps, hhead⟩ :=
    exists_front_append (fun b => decide (RunKind.ofByte? b = none)) rest
  simp only [decide_eq_true_eq, decide_eq_false_iff_not] at hseps hhead
  cases tail with
  | nil =>
    rw [List.append_nil, ← List.append_nil seps, spansFrom_separators hseps, List.append_nil]
    exact .inl ⟨rfl, nextRun_separators hseps before⟩
  | cons b behind =>
    obtain ⟨kind, hkind⟩ := Option.ne_none_iff_exists'.1 (hhead b rfl)
    obtain ⟨run, later, hcut, hrun, hlater⟩ :=
      exists_front_append (fun b => decide (RunKind.ofByte? b = some kind)) (b :: behind)
    simp only [decide_eq_true_eq, decide_eq_false_iff_not] at hrun hlater
    have hne : run ≠ [] := by
      rintro rfl
      exact hlater b (by rw [← List.nil_append later, ← hcut]; rfl) hkind
    rw [hcut]
    refine .inr ⟨_, seps ++ run, later, (List.append_assoc ..).symm, ?_, ?_,
      nextRun_run hseps hne hrun hlater before⟩
    · simp only [List.length_append, Nat.add_assoc]
    · rw [spansFrom_separators hseps, ← List.length_append]
      exact spansFrom_run hne hrun fun span hspan => start_ne_of_head?_ne hlater hspan

/-! ## The calls -/

/-- The answers are the runs in order, and then that there is none left. -/
theorem answerFrom_eq {s : String} {before rest : List UInt8}
    (h : utf8 s.toList = before ++ rest) (n : Nat) :
    answerFrom s before.length n = (spansFrom before.length rest)[n]?.elim .finished (cut s) := by
  induction n generalizing before rest with
  | zero =>
    rcases nextRun_append before rest with
      ⟨hspans, hnext⟩ | ⟨span, passed, later, -, -, hspans, hnext⟩
    · rw [answerFrom, call, h, hnext, hspans]
      rfl
    · rw [answerFrom, call, h, hnext, hspans]
      rfl
  | succ n ih =>
    rcases nextRun_append before rest with
      ⟨hspans, hnext⟩ | ⟨span, passed, later, hrest, hstop, hspans, hnext⟩
    · have hend : utf8 s.toList = (before ++ rest) ++ [] := by rw [h, List.append_nil]
      rw [answerFrom, call, h, hnext, hspans, ih hend]
      rfl
    · have hbehind : utf8 s.toList = (before ++ passed) ++ later := by
        rw [h, hrest, List.append_assoc]
      have hlater := ih hbehind
      rw [← hstop] at hlater
      rw [answerFrom, call, h, hnext, hspans]
      exact hlater

theorem answer_eq (s : String) (n : Nat) :
    answer s n = (spans (utf8 s.toList))[n]?.elim .finished (cut s) :=
  answerFrom_eq (List.nil_append _).symm n

end Scanner

/-! ## Pieces of a text -/

/-- A maximal run of letters or of digits, in its place in a text. -/
structure Piece (cs : List Char) where
  kind : RunKind
  before : List Char
  run : List Char
  after : List Char
  append_eq : before ++ (run ++ after) = cs
  ne_nil : run ≠ []
  uniform : ∀ c ∈ run, RunKind.ofChar? c = some kind
  last_ne : ∀ c ∈ before.getLast?, RunKind.ofChar? c ≠ some kind
  head_ne : ∀ c ∈ after.head?, RunKind.ofChar? c ≠ some kind

namespace Piece

variable {cs : List Char}

/-- Where the bytes of a piece stand. -/
def span (piece : Piece cs) : Span :=
  ⟨piece.kind, (utf8 piece.before).length, (utf8 piece.before).length + (utf8 piece.run).length⟩

/-- The segment of a piece. -/
def segment (piece : Piece cs) : Segment :=
  .ofRun piece.kind piece.run

/-- A piece starts and ends between characters. -/
theorem slice?_span (piece : Piece cs) :
    slice? cs piece.span.start piece.span.stop = some piece.run := by
  have h := slice?_append piece.before piece.run piece.after
  rwa [piece.append_eq] at h

theorem cut_span {s : String} (piece : Piece s.toList) :
    Scanner.cut s piece.span = .segment piece.span piece.segment := by
  rw [Scanner.cut, slice?_span]
  rfl

end Piece

theorem AreRuns.exists_head? {runs : List (List Char)} (h : AreRuns runs) {c : Char}
    (hc : c ∈ runs.flatten.head?) : ∃ run ∈ runs.head?, runKind? run = RunKind.ofChar? c := by
  cases runs with
  | nil => cases hc
  | cons run later =>
    obtain ⟨d, rest, rfl⟩ := List.exists_cons_of_ne_nil (h.ne_nil run List.mem_cons_self)
    obtain rfl := Option.some.inj hc
    exact ⟨_, rfl, rfl⟩

/-- The runs of a text that are no separators are its pieces. -/
theorem AreRuns.exists_pieces {runs : List (List Char)} (h : AreRuns runs) {before cs : List Char}
    (hcs : before ++ runs.flatten = cs)
    (hbefore : ∀ run ∈ runs.head?, ∀ c ∈ before.getLast?, RunKind.ofChar? c ≠ runKind? run) :
    ∃ pieces : List (Piece cs), pieces.map Piece.span = layOut (utf8 before).length runs ∧
      pieces.map Piece.run = runs.filter fun run => (runKind? run).isSome := by
  induction runs generalizing before with
  | nil => exact ⟨[], rfl, rfl⟩
  | cons run later ih =>
    have hne := h.ne_nil run List.mem_cons_self
    have huniform := h.uniform run List.mem_cons_self
    have hcs' : before ++ run ++ later.flatten = cs := by
      rw [← hcs, List.flatten_cons, List.append_assoc]
    have hapart : ∀ next ∈ later.head?, runKind? run ≠ runKind? next := by
      intro next hnext
      cases later with
      | nil => cases hnext
      | cons head later =>
        obtain rfl := Option.some.inj hnext
        exact (List.isChain_cons_cons.1 h.apart).1
    have hlast : ∀ next ∈ later.head?, ∀ c ∈ (before ++ run).getLast?,
        RunKind.ofChar? c ≠ runKind? next := by
      intro next hnext c hc
      rw [List.getLast?_append_of_ne_nil _ hne] at hc
      rw [huniform c (List.mem_of_mem_getLast? hc)]
      exact hapart next hnext
    obtain ⟨pieces, hspans, hruns⟩ := ih h.tail hcs' hlast
    rw [utf8_append, List.length_append] at hspans
    rw [layOut, List.filter_cons]
    cases hkind : runKind? run with
    | none => exact ⟨pieces, hspans, hruns⟩
    | some kind =>
      rw [hkind] at huniform hapart
      refine ⟨⟨kind, before, run, later.flatten, ?_, hne, huniform, ?_, ?_⟩ :: pieces, ?_, ?_⟩
      · rw [← List.append_assoc, hcs']
      · intro c hc
        rw [← hkind]
        exact hbefore run rfl c hc
      · intro c hc
        obtain ⟨next, hnext, hsame⟩ := h.tail.exists_head? hc
        rw [← hsame]
        exact (hapart next hnext).symm
      · exact congrArg _ hspans
      · exact congrArg _ hruns

theorem pairwise_layOut (runs : List (List Char)) (pos : Nat) :
    (layOut pos runs).Pairwise fun a b => a.stop ≤ b.start := by
  induction runs generalizing pos with
  | nil => exact .nil
  | cons run later ih =>
    rw [layOut]
    split
    · exact List.pairwise_cons.2 ⟨fun span => le_start_of_mem_layOut, ih _⟩
    · exact ih _

/-- The runs that are no separators hold the letters and digits of the text, in order. -/
theorem AreRuns.flatten_filter {runs : List (List Char)} (h : AreRuns runs) :
    (runs.filter fun run => (runKind? run).isSome).flatten =
      runs.flatten.filter Char.isAlphanum := by
  induction runs with
  | nil => rfl
  | cons run later ih =>
    have huniform := h.uniform run List.mem_cons_self
    rw [List.filter_cons, List.flatten_cons, List.filter_append, ← ih h.tail]
    cases hkind : runKind? run with
    | none =>
      have hdropped : run.filter Char.isAlphanum = [] := by
        refine List.filter_eq_nil_iff.2 fun c hc => ?_
        rw [RunKind.ofChar?_eq_none_iff.1 ((huniform c hc).trans hkind)]
        exact Bool.false_ne_true
      rw [hdropped]
      rfl
    | some kind =>
      have hkept : run.filter Char.isAlphanum = run := by
        refine List.filter_eq_self.2 fun c hc => ?_
        by_contra hnot
        have hnone := RunKind.ofChar?_eq_none_iff.2 (Bool.not_eq_true _ ▸ hnot)
        rw [huniform c hc, hkind] at hnone
        cases hnone
      rw [hkept]
      rfl

/-- How a run is reported: digits without the leading zeros, letters as they are. -/
inductive Segment.Reports : RunKind → List Char → Segment → Prop
  | number (n : Nat) {digits : List Char} (hdigits : ∀ c ∈ digits.head?, c ≠ '0') :
    Reports .digits (List.replicate n '0' ++ digits) (.numeric digits)
  | word (letters : List Char) : Reports .letters letters (.alpha letters)

theorem Segment.reports_ofRun (kind : RunKind) (run : List Char) :
    Reports kind run (ofRun kind run) := by
  cases kind with
  | letters => exact .word run
  | digits =>
    have hzeros : run.takeWhile (· == '0') =
        List.replicate (run.takeWhile (· == '0')).length '0' :=
      List.eq_replicate_of_mem fun c hc => eq_of_beq (List.all_eq_true.1 List.all_takeWhile c hc)
    have hdigits : ∀ c ∈ (run.dropWhile (· == '0')).head?, c ≠ '0' := fun c hc =>
      beq_eq_false_iff_ne.1 (eq_false_of_mem_head?_dropWhile (p := (· == '0')) hc)
    have hreport := Reports.number (run.takeWhile (· == '0')).length hdigits
    rwa [← hzeros, List.takeWhile_append_dropWhile] at hreport

/-- Nothing is left of a run of digits exactly if all of them are zero. -/
theorem Segment.eq_nil_iff_of_ofRun {kind : RunKind} {run digits : List Char}
    (h : ofRun kind run = .numeric digits) : digits = [] ↔ ∀ c ∈ run, c = '0' := by
  cases kind with
  | letters => cases h
  | digits =>
    obtain rfl := Segment.numeric.inj h
    simp only [List.dropWhile_eq_nil_iff, beq_iff_eq]

/-- **The scan is safe and exact.**  Behind `n` calls comes the segment of piece `n`, cut out where
that piece stands, and behind all pieces comes nothing any more; no cut fails.  The pieces follow
one another without overlap and hold exactly the letters and digits of the text.  Digits are
reported without their leading zeros, so that nothing is left exactly if all are zero, and letters
as they are.  The segments are those of the runs of characters. -/
theorem scan_exact (s : String) :
    ∃ pieces : List (Piece s.toList),
      (∀ n, Scanner.answer s n =
        pieces[n]?.elim .finished fun piece => .segment piece.span piece.segment) ∧
      pieces.Pairwise (fun a b => a.span.stop ≤ b.span.start) ∧
      pieces.flatMap Piece.run = s.toList.filter Char.isAlphanum ∧
      (∀ piece ∈ pieces, Segment.Reports piece.kind piece.run piece.segment ∧
        ∀ digits, piece.segment = .numeric digits → (digits = [] ↔ ∀ c ∈ piece.run, c = '0')) ∧
      segments s = pieces.map Piece.segment ∧
      segments s = (charRuns s.toList).filterMap Segment.ofRun? := by
  have hruns := areRuns_charRuns s.toList
  have hflatten : (charRuns s.toList).flatten = s.toList := List.flatten_splitBy _ _
  obtain ⟨pieces, hlayOut, hpieces⟩ :=
    hruns.exists_pieces ((List.nil_append _).trans hflatten) (by simp)
  have hspans : spans (utf8 s.toList) = pieces.map Piece.span := by
    rw [hlayOut, spans, ← spansFrom_flatten hruns, hflatten]
    rfl
  refine ⟨pieces, ?answers, ?apart, ?characters, ?reports, ?segments,
    segments_eq_charSegments s⟩
  case answers =>
    intro n
    rw [Scanner.answer_eq, hspans, List.getElem?_map]
    cases pieces[n]? with
    | none => rfl
    | some piece => exact piece.cut_span
  case apart =>
    have hpairwise := pairwise_layOut (charRuns s.toList) (utf8 []).length
    rwa [← hlayOut, List.pairwise_map] at hpairwise
  case characters =>
    rw [List.flatMap_def, hpieces, hruns.flatten_filter, hflatten]
  case reports =>
    exact fun piece _ => ⟨Segment.reports_ofRun _ _, fun _ => Segment.eq_nil_iff_of_ofRun⟩
  case segments =>
    have hcut : ∀ piece : Piece s.toList,
        (slice? s.toList piece.span.start piece.span.stop).map (Segment.ofRun piece.span.kind) =
          some piece.segment := fun piece => by rw [piece.slice?_span]; rfl
    rw [segments, hspans, List.filterMap_map, ← List.filterMap_eq_map]
    exact List.filterMap_congr fun piece _ => hcut piece

/-- The dash between the zeros and the letter takes three bytes. -/
example : Scanner.answer "1.00–x" 1 = .segment ⟨.digits, 2, 4⟩ (.numeric []) ∧
    Scanner.answer "1.00–x" 2 = .segment ⟨.letters, 7, 8⟩ (.alpha ['x']) ∧
    Scanner.answer "1.00–x" 3 = .finished := by
  decide +kernel

end PackagePool.Version
