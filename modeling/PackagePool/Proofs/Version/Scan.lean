import Mathlib.Data.List.SplitBy
import PackagePool.Version.Token

/-!
# The scan of a version text

The segments of a text are found on its bytes and cut out of it at byte offsets.  This module says
the same in terms of characters, once and for all: `segments_eq_charSegments` gives the segments of
a text as those of its maximal runs of characters of one kind.  No proof about versions has to look
at bytes or offsets behind this point.

The proof follows the runs.  The bytes of a run all belong to the run's kind, so the scan of a run
followed by other bytes is one span followed by the scan of these (`spansFrom_run`), unless the run
consists of separators, which only take up room (`spansFrom_separators`).  Runs laid out one behind
another therefore give the spans of `layOut`, and each of these is cut out of the text as the run it
came from.

What follows for a separator in a text is `charSegments_append_separator`: it divides the segments
into those before and those behind it.
-/

namespace PackagePool.Version

open PackagePool.Text

/-! ## Bytes of one kind -/

/-- The kind of run that a code belongs to, be it that of a byte or that of a character. -/
def RunKind.ofCode? (code : Nat) : Option RunKind :=
  if 0x30 ≤ code ∧ code ≤ 0x39 then some .digits
  else if (0x41 ≤ code ∧ code ≤ 0x5A) ∨ (0x61 ≤ code ∧ code ≤ 0x7A) then some .letters
  else none

theorem RunKind.ofByte?_eq (b : UInt8) : RunKind.ofByte? b = RunKind.ofCode? b.toNat := by
  simp only [ofByte?, ofCode?, UInt8.le_iff_toNat_le]
  rfl

theorem isUpper_iff_toNat {c : Char} : c.isUpper = true ↔ 0x41 ≤ c.toNat ∧ c.toNat ≤ 0x5A := by
  change decide (0x41 ≤ c.val ∧ c.val ≤ 0x5A) = true ↔ _
  simp only [decide_eq_true_eq, UInt32.le_iff_toNat_le]
  rfl

theorem isLower_iff_toNat {c : Char} : c.isLower = true ↔ 0x61 ≤ c.toNat ∧ c.toNat ≤ 0x7A := by
  change (decide (0x61 ≤ c.val) && decide (c.val ≤ 0x7A)) = true ↔ _
  simp only [Bool.and_eq_true, decide_eq_true_eq, UInt32.le_iff_toNat_le]
  rfl

theorem isAlpha_iff_toNat {c : Char} :
    c.isAlpha = true ↔ (0x41 ≤ c.toNat ∧ c.toNat ≤ 0x5A) ∨ (0x61 ≤ c.toNat ∧ c.toNat ≤ 0x7A) := by
  rw [← isUpper_iff_toNat, ← isLower_iff_toNat]
  exact Bool.or_eq_true_iff

theorem RunKind.ofChar?_eq (c : Char) : RunKind.ofChar? c = RunKind.ofCode? c.toNat := by
  simp only [ofChar?, ofCode?, Char.isDigit_iff_toNat, isAlpha_iff_toNat]
  rfl

theorem RunKind.ofCode?_of_le {code : Nat} (h : 0x80 ≤ code) : RunKind.ofCode? code = none := by
  rw [ofCode?, if_neg (by omega), if_neg (by omega)]

theorem le_toNat_of_mem_utf8EncodeChar {c : Char} {b : UInt8} (hwide : 0x7F < c.toNat)
    (h : b ∈ String.utf8EncodeChar c) : 0x80 ≤ b.toNat := by
  have hmarked : ∀ code, 0x80 ≤ code → code < 0x100 → 0x80 ≤ (UInt8.ofNat code).toNat := by
    intro code hle hlt
    rwa [UInt8.toNat_ofNat', Nat.mod_eq_of_lt hlt]
  have hnot : ¬ c.val.toNat ≤ 0x7F := Nat.not_le.2 hwide
  simp only [String.utf8EncodeChar, hnot, if_false] at h
  split at h
  · simp only [List.mem_cons, List.not_mem_nil, or_false] at h
    rcases h with rfl | rfl <;> exact hmarked _ (by omega) (by omega)
  · split at h
    · simp only [List.mem_cons, List.not_mem_nil, or_false] at h
      rcases h with rfl | rfl | rfl <;> exact hmarked _ (by omega) (by omega)
    · simp only [List.mem_cons, List.not_mem_nil, or_false] at h
      rcases h with rfl | rfl | rfl | rfl <;> exact hmarked _ (by omega) (by omega)

/-- Every byte of a character is of the kind of the character: the bytes of a character beyond
ASCII are separators, as is the character. -/
theorem RunKind.ofByte?_of_mem {c : Char} {b : UInt8} (h : b ∈ String.utf8EncodeChar c) :
    RunKind.ofByte? b = RunKind.ofChar? c := by
  rw [ofByte?_eq, ofChar?_eq]
  by_cases hascii : c.toNat ≤ 0x7F
  · have hsingle : String.utf8EncodeChar c = [UInt8.ofNat c.toNat] := if_pos hascii
    rw [hsingle, List.mem_singleton] at h
    rw [h, UInt8.toNat_ofNat', Nat.mod_eq_of_lt (by omega)]
  · have hwide := Nat.not_le.1 hascii
    rw [ofCode?_of_le (le_toNat_of_mem_utf8EncodeChar hwide h), ofCode?_of_le hwide]

theorem eq_false_of_mem_head?_dropWhile {α : Type} {p : α → Bool} {xs : List α} {x : α}
    (hx : x ∈ (xs.dropWhile p).head?) : p x = false := by
  have hhead := List.head?_dropWhile_not p xs
  rw [Option.mem_def.1 hx] at hhead
  exact hhead

/-- A list is cut at its first member that lacks a property. -/
theorem exists_front_append {α : Type} (p : α → Bool) (xs : List α) :
    ∃ front back, xs = front ++ back ∧ (∀ x ∈ front, p x = true) ∧ ∀ x ∈ back.head?, p x = false :=
  ⟨xs.takeWhile p, xs.dropWhile p, List.takeWhile_append_dropWhile.symm,
    List.all_eq_true.1 List.all_takeWhile, fun _ => eq_false_of_mem_head?_dropWhile⟩

theorem spansFrom_separators {bytes : List UInt8} (h : ∀ b ∈ bytes, RunKind.ofByte? b = none)
    (pos : Nat) (rest : List UInt8) :
    spansFrom pos (bytes ++ rest) = spansFrom (pos + bytes.length) rest := by
  induction bytes generalizing pos with
  | nil => rfl
  | cons b bytes ih =>
    obtain ⟨hb, hbytes⟩ := List.forall_mem_cons.1 h
    have hlength : pos + (b :: bytes).length = pos + 1 + bytes.length := by
      rw [List.length_cons]
      omega
    rw [List.cons_append, spansFrom, hb, hlength]
    exact ih hbytes (pos + 1)

/-- Bytes of one kind are one span, if no span of that kind starts right behind them. -/
theorem spansFrom_run {kind : RunKind} {bytes : List UInt8} (hne : bytes ≠ [])
    (h : ∀ b ∈ bytes, RunKind.ofByte? b = some kind) {pos : Nat} {rest : List UInt8}
    (hend : ∀ span ∈ (spansFrom (pos + bytes.length) rest).head?,
      span.kind = kind → span.start ≠ pos + bytes.length) :
    spansFrom pos (bytes ++ rest) =
      ⟨kind, pos, pos + bytes.length⟩ :: spansFrom (pos + bytes.length) rest := by
  induction bytes generalizing pos with
  | nil => exact absurd rfl hne
  | cons b bytes ih =>
    obtain ⟨hb, hbytes⟩ := List.forall_mem_cons.1 h
    have hlength : pos + (b :: bytes).length = pos + 1 + bytes.length := by
      rw [List.length_cons]
      omega
    rw [hlength] at hend ⊢
    rw [List.cons_append, spansFrom, hb]
    cases bytes with
    | nil =>
      simp only [List.nil_append, List.length_nil, Nat.add_zero] at hend ⊢
      cases hspans : spansFrom (pos + 1) rest with
      | nil => rfl
      | cons span later =>
        rw [hspans] at hend
        have hapart : ¬ (span.kind = kind ∧ span.start = pos + 1) := fun h =>
          hend span rfl h.1 h.2
        exact if_neg hapart
    | cons next bytes =>
      rw [ih (List.cons_ne_nil _ _) hbytes hend]
      exact if_pos ⟨rfl, rfl⟩

/-! ## Runs of characters -/

/-- The kind of a run; none for a run of separators. -/
def runKind? (run : List Char) : Option RunKind :=
  run.head?.bind RunKind.ofChar?

/-- The lists are runs of characters of one kind, and no two neighbours are of the same kind. -/
structure AreRuns (runs : List (List Char)) : Prop where
  ne_nil : ∀ run ∈ runs, run ≠ []
  uniform : ∀ run ∈ runs, ∀ c ∈ run, RunKind.ofChar? c = runKind? run
  apart : runs.IsChain fun a b => runKind? a ≠ runKind? b

theorem uniform_of_isChain {run : List Char}
    (h : run.IsChain fun a b => RunKind.ofChar? a == RunKind.ofChar? b) :
    ∀ c ∈ run, RunKind.ofChar? c = runKind? run := by
  cases run with
  | nil => exact fun c hc => absurd hc List.not_mem_nil
  | cons head rest =>
    have hkinds : ((head :: rest).map RunKind.ofChar?).IsChain (· = ·) :=
      (List.isChain_map _).2 (h.imp fun a b => eq_of_beq)
    rw [List.isChain_iff_pairwise, List.map_cons, List.pairwise_cons] at hkinds
    intro c hc
    rcases List.mem_cons.1 hc with rfl | hc
    · rfl
    · exact (hkinds.1 _ (List.mem_map_of_mem hc)).symm

theorem areRuns_charRuns (cs : List Char) : AreRuns (charRuns cs) := by
  have huniform : ∀ run ∈ charRuns cs, ∀ c ∈ run, RunKind.ofChar? c = runKind? run :=
    fun run hrun => uniform_of_isChain (List.isChain_of_mem_splitBy hrun)
  constructor
  case ne_nil => exact fun run => List.ne_nil_of_mem_splitBy
  case uniform => exact huniform
  case apart =>
    refine (List.isChain_getLast_head_splitBy _ cs).imp_of_mem_imp ?_
    rintro a b ha hb ⟨hane, hbne, hdiffer⟩
    rw [← huniform a ha _ (List.getLast_mem hane), ← huniform b hb _ (List.head_mem hbne)]
    exact beq_eq_false_iff_ne.1 hdiffer

/-- The spans of runs that stand one behind another from offset `pos` on.  Runs of separators only
take up room. -/
def layOut (pos : Nat) : List (List Char) → List Span
  | [] => []
  | run :: later =>
    match runKind? run with
    | some kind => ⟨kind, pos, pos + (utf8 run).length⟩ :: layOut (pos + (utf8 run).length) later
    | none => layOut (pos + (utf8 run).length) later

theorem le_start_of_mem_layOut {runs : List (List Char)} {pos : Nat} {span : Span}
    (h : span ∈ layOut pos runs) : pos ≤ span.start := by
  induction runs generalizing pos with
  | nil => exact absurd h List.not_mem_nil
  | cons run later ih =>
    have hlater : span ∈ layOut (pos + (utf8 run).length) later → pos ≤ span.start := fun h =>
      Nat.le_trans (Nat.le_add_right _ _) (ih h)
    rw [layOut] at h
    split at h
    · rcases List.mem_cons.1 h with rfl | h
      · exact Nat.le_refl _
      · exact hlater h
    · exact hlater h

theorem AreRuns.tail {run : List Char} {later : List (List Char)} (h : AreRuns (run :: later)) :
    AreRuns later where
  ne_nil other hother := h.ne_nil other (List.mem_cons_of_mem _ hother)
  uniform other hother := h.uniform other (List.mem_cons_of_mem _ hother)
  apart := h.apart.tail

/-- Behind a run no span of its kind starts at once: the next run is of another kind, and behind a
run of separators the next span starts later. -/
theorem AreRuns.start_ne {run : List Char} {later : List (List Char)}
    (h : AreRuns (run :: later)) {kind : RunKind} (hkind : runKind? run = some kind) {pos : Nat}
    {span : Span} (hspan : span ∈ (layOut pos later).head?) (hsame : span.kind = kind) :
    span.start ≠ pos := by
  cases later with
  | nil => cases hspan
  | cons next later =>
    have hdiffer : runKind? run ≠ runKind? next := (List.isChain_cons_cons.1 h.apart).1
    rw [layOut] at hspan
    split at hspan
    · rename_i kind' hkind'
      obtain rfl := Option.some.inj hspan
      rw [hkind, hkind'] at hdiffer
      exact absurd (congrArg some hsame.symm) hdiffer
    · have hbehind := le_start_of_mem_layOut (List.mem_of_mem_head? hspan)
      have hroom := length_utf8_pos (h.tail.ne_nil next List.mem_cons_self)
      omega

/-- The scan of runs finds them where they stand. -/
theorem spansFrom_flatten {runs : List (List Char)} (h : AreRuns runs) (pos : Nat) :
    spansFrom pos (utf8 runs.flatten) = layOut pos runs := by
  induction runs generalizing pos with
  | nil => rfl
  | cons run later ih =>
    have hbytes : ∀ b ∈ utf8 run, RunKind.ofByte? b = runKind? run := by
      intro b hb
      obtain ⟨c, hc, hb⟩ := List.mem_flatMap.1 hb
      rw [RunKind.ofByte?_of_mem hb]
      exact h.uniform run List.mem_cons_self c hc
    rw [List.flatten_cons, utf8_append, layOut]
    cases hkind : runKind? run with
    | none =>
      rw [hkind] at hbytes
      rw [spansFrom_separators hbytes]
      exact ih h.tail _
    | some kind =>
      rw [hkind] at hbytes
      have hne := List.ne_nil_of_length_pos (length_utf8_pos (h.ne_nil run List.mem_cons_self))
      rw [spansFrom_run hne hbytes, ih h.tail]
      intro span hspan
      rw [ih h.tail] at hspan
      exact h.start_ne hkind hspan

/-! ## Segments of runs -/

/-- The segment of a run; none for a run of separators. -/
def Segment.ofRun? (run : List Char) : Option Segment :=
  (runKind? run).map fun kind => Segment.ofRun kind run

/-- The segments of the runs of a text. -/
def charSegments (cs : List Char) : List Segment :=
  (charRuns cs).filterMap Segment.ofRun?

theorem filterMap_slice?_layOut (before : List Char) (runs : List (List Char)) :
    ((layOut (utf8 before).length runs).filterMap fun span =>
      (slice? (before ++ runs.flatten) span.start span.stop).map (Segment.ofRun span.kind)) =
    runs.filterMap Segment.ofRun? := by
  induction runs generalizing before with
  | nil => rfl
  | cons run later ih =>
    have hlater := ih (before ++ run)
    rw [utf8_append, List.length_append, List.append_assoc] at hlater
    rw [layOut, List.flatten_cons, List.filterMap_cons, Segment.ofRun?]
    cases runKind? run with
    | none => exact hlater
    | some kind =>
      rw [List.filterMap_cons, slice?_append, hlater]
      rfl

/-- **The segments of a text are those of its runs of characters.** -/
theorem segments_eq_charSegments (s : String) : segments s = charSegments s.toList := by
  have hflatten : (charRuns s.toList).flatten = s.toList := List.flatten_splitBy _ _
  have hspans := spansFrom_flatten (areRuns_charRuns s.toList) 0
  rw [hflatten] at hspans
  have hcut := filterMap_slice?_layOut [] (charRuns s.toList)
  rw [hflatten] at hcut
  rw [segments, spans, hspans]
  exact hcut

/-! ## Separators -/

/-- A text has no segment exactly if all its characters are separators. -/
theorem charSegments_eq_nil_iff {cs : List Char} :
    charSegments cs = [] ↔ ∀ c ∈ cs, RunKind.ofChar? c = none := by
  have hflatten : (charRuns cs).flatten = cs := List.flatten_splitBy _ _
  rw [charSegments, List.filterMap_eq_nil_iff]
  constructor
  · intro h c hc
    rw [← hflatten] at hc
    obtain ⟨run, hrun, hc⟩ := List.mem_flatten.1 hc
    have hkind : runKind? run = none := Option.map_eq_none_iff.1 (h run hrun)
    rw [(areRuns_charRuns cs).uniform run hrun c hc, hkind]
  · intro h run hrun
    have hkind : runKind? run = none := by
      obtain ⟨c, rest, rfl⟩ := List.exists_cons_of_ne_nil ((areRuns_charRuns cs).ne_nil run hrun)
      refine h c ?_
      rw [← hflatten]
      exact List.mem_flatten_of_mem hrun List.mem_cons_self
    rw [Segment.ofRun?, hkind, Option.map_none]

theorem RunKind.ofChar?_eq_none_iff {c : Char} :
    RunKind.ofChar? c = none ↔ c.isAlphanum = false := by
  unfold RunKind.ofChar? Char.isAlphanum
  cases c.isDigit <;> cases c.isAlpha <;> simp

/-- It takes a letter or a digit of ASCII to have a segment. -/
theorem hasSegment_iff {s : String} :
    hasSegment s = true ↔ ∃ c ∈ s.toList, c.isAlphanum = true := by
  rw [hasSegment, segments_eq_charSegments, Bool.not_eq_true', List.isEmpty_eq_false_iff, Ne,
    charSegments_eq_nil_iff]
  simp [RunKind.ofChar?_eq_none_iff]

/-- Separators in front of a run, or at the end, do not count. -/
theorem charSegments_separators_append {seps rest : List Char}
    (h : ∀ c ∈ seps, RunKind.ofChar? c = none)
    (hrest : ∀ c ∈ rest.head?, RunKind.ofChar? c ≠ none) :
    charSegments (seps ++ rest) = charSegments rest := by
  have hsplit : charRuns (seps ++ rest) = charRuns seps ++ charRuns rest := by
    refine List.splitBy_append fun x hx y hy => ?_
    rw [h x (List.mem_of_mem_getLast? hx), beq_eq_false_iff_ne]
    exact (hrest y hy).symm
  have hnone : (charRuns seps).filterMap Segment.ofRun? = [] := charSegments_eq_nil_iff.2 h
  rw [charSegments, hsplit, List.filterMap_append, hnone, List.nil_append, charSegments]

theorem exists_separators_append (cs : List Char) :
    ∃ seps rest, cs = seps ++ rest ∧ (∀ c ∈ seps, RunKind.ofChar? c = none) ∧
      ∀ c ∈ rest.head?, RunKind.ofChar? c ≠ none := by
  induction cs with
  | nil => exact ⟨[], [], rfl, by simp, by simp⟩
  | cons c cs ih =>
    by_cases hc : RunKind.ofChar? c = none
    · obtain ⟨seps, rest, rfl, hseps, hrest⟩ := ih
      exact ⟨c :: seps, rest, rfl, List.forall_mem_cons.2 ⟨hc, hseps⟩, hrest⟩
    · exact ⟨[], c :: cs, rfl, by simp, by simpa using hc⟩

theorem charSegments_cons_separator {c : Char} (hc : RunKind.ofChar? c = none) (cs : List Char) :
    charSegments (c :: cs) = charSegments cs := by
  obtain ⟨seps, rest, rfl, hseps, hrest⟩ := exists_separators_append cs
  calc charSegments (c :: (seps ++ rest))
      = charSegments rest :=
        charSegments_separators_append (List.forall_mem_cons.2 ⟨hc, hseps⟩) hrest
    _ = charSegments (seps ++ rest) := (charSegments_separators_append hseps hrest).symm

/-- A separator divides the segments into those in front of it and those behind it. -/
theorem charSegments_append_separator {c : Char} (hc : RunKind.ofChar? c = none)
    (before after : List Char) :
    charSegments (before ++ c :: after) = charSegments before ++ charSegments after := by
  induction before using List.reverseRecOn generalizing c after with
  | nil => exact charSegments_cons_separator hc after
  | append_singleton before d ih =>
    have hbehind := charSegments_cons_separator hc after
    by_cases hd : RunKind.ofChar? d = none
    · have hnone : charSegments [] = [] := rfl
      rw [List.append_assoc, List.singleton_append, ih hd, ih hd, hbehind, hnone, List.append_nil]
    · have hsplit : charRuns (before ++ [d] ++ c :: after) =
          charRuns (before ++ [d]) ++ charRuns (c :: after) := by
        refine List.splitBy_append_cons after fun x hx => ?_
        rw [List.getLast?_concat, Option.mem_some] at hx
        rw [← hx, hc, beq_eq_false_iff_ne]
        exact hd
      rw [charSegments, hsplit, List.filterMap_append]
      exact congrArg _ hbehind

end PackagePool.Version
