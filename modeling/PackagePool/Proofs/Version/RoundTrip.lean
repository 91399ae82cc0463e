import PackagePool.Proofs.Text.Trim
import PackagePool.Proofs.Version.Grammar
import PackagePool.Proofs.Version.Order

/-!
# Reading back the written form of an edition

The written form of an edition is `[epoch:]version[-release]`, and what an edition may hold is
chosen so that the form can be divided into these parts in one way only.  Different editions are
therefore written differently (`render_injective`).  Reading trims the text before it is cut, and no
check of the parts knows of blanks, so what is read back from an edition is that edition without the
blanks at the ends of its written form (`parse_render`).

That edition is `Edition.trimmed`.  Blanks only separate segments, so it has the segments of the
edition it comes from and compares as equal to it, but its parts are the same only if there was
nothing to trim.  The two main results are `render_faithful`, on what the written form preserves,
and `parse_render_eq_iff`, on the editions whose parts survive.  Both are about every edition that
`ofParts` and `parse` answer with, since an edition is its parts and the proof that they have no
fault (`ofParts_eq_ok_iff`).
-/

namespace PackagePool

open Text

/-! ## Blanks and segments -/

namespace Version

theorem RunKind.ofChar?_of_isBlank {c : Char} (h : isBlank c = true) :
    RunKind.ofChar? c = none := by
  simp only [isBlank, Bool.or_eq_true, Bool.and_eq_true, decide_eq_true_eq, beq_iff_eq] at h
  rw [ofChar?_eq, ofCode?, if_neg (by omega), if_neg (by omega)]

theorem isBlank_of_isDigit {c : Char} (h : c.isDigit = true) : isBlank c = false := by
  rw [Bool.eq_false_iff]
  intro hblank
  have hkind := RunKind.ofChar?_of_isBlank hblank
  rw [RunKind.ofChar?, if_pos h] at hkind
  cases hkind

theorem charSegments_dropWhile_isBlank (cs : List Char) :
    charSegments (cs.dropWhile isBlank) = charSegments cs := by
  induction cs with
  | nil => rfl
  | cons c cs ih =>
    cases hc : isBlank c with
    | true =>
      rw [List.dropWhile_cons_of_pos hc, ih,
        charSegments_cons_separator (RunKind.ofChar?_of_isBlank hc)]
    | false => rw [List.dropWhile_cons_of_neg (by simp [hc])]

theorem charSegments_dropBlankEnd (cs : List Char) :
    charSegments (dropBlankEnd cs) = charSegments cs := by
  rw [dropBlankEnd_eq_rdropWhile]
  induction cs using List.reverseRecOn with
  | nil => rfl
  | append_singleton cs c ih =>
    cases hc : isBlank c with
    | true =>
      have hnil : charSegments [] = [] := rfl
      rw [List.rdropWhile_concat_pos _ _ _ hc, ih,
        charSegments_append_separator (RunKind.ofChar?_of_isBlank hc), hnil, List.append_nil]
    | false => rw [List.rdropWhile_concat_neg _ _ _ (by simp [hc])]

/-- A text with a segment is not blank. -/
theorem solid_of_hasSegment {s : String} (h : hasSegment s = true) : Solid s.toList := by
  obtain ⟨c, hc, halphanum⟩ := hasSegment_iff.1 h
  refine ⟨c, hc, ?_⟩
  rw [Bool.eq_false_iff]
  intro hblank
  rw [RunKind.ofChar?_eq_none_iff.1 (RunKind.ofChar?_of_isBlank hblank)] at halphanum
  cases halphanum

/-- A text that says the same as another one with some characters left out. -/
structure Abridges (short long : String) : Prop where
  segments_eq : segments short = segments long
  subset : short.toList ⊆ long.toList

namespace Abridges

theorem hasSegment_eq {short long : String} (h : Abridges short long) :
    hasSegment short = hasSegment long := by
  rw [hasSegment, h.segments_eq, hasSegment]

theorem refl (s : String) : Abridges s s :=
  ⟨rfl, List.Subset.refl _⟩

theorem trimStart (s : String) : Abridges (Text.trimStart s) s where
  segments_eq := by
    rw [segments_eq_charSegments, toList_trimStart, charSegments_dropWhile_isBlank,
      segments_eq_charSegments]
  subset := by
    rw [toList_trimStart]
    exact (List.dropWhile_suffix _).subset

theorem trimEnd (s : String) : Abridges (Text.trimEnd s) s where
  segments_eq := by
    rw [segments_eq_charSegments, toList_trimEnd, charSegments_dropBlankEnd,
      segments_eq_charSegments]
  subset := by
    rw [toList_trimEnd]
    exact (List.rdropWhile_prefix _ _).subset

theorem ite {p : Prop} [Decidable p] {short long : String} (h : Abridges short long) :
    Abridges (if p then short else long) long := by
  split
  · exact h
  · exact refl long

theorem refl_option (long : Option String) : Option.Rel Abridges long long := by
  cases long with
  | none => exact .none
  | some s => exact .some (refl s)

theorem map {f : String → String} (h : ∀ s, Abridges (f s) s) (long : Option String) :
    Option.Rel Abridges (long.map f) long := by
  cases long with
  | none => exact .none
  | some s => exact .some (h s)

end Abridges

end Version

namespace Edition

open Version

/-! ## Abridged parts -/

/-- Abridged parts have no fault that the full ones do not have. -/
theorem faultless_of_abridges {version version' : String} {release release' : Option String}
    (h : fault? version release = none) (hversion : Abridges version' version)
    (hrelease : Option.Rel Abridges release' release) : fault? version' release' = none := by
  obtain ⟨hsegment, hcolon, hdash, hparts⟩ := fault?_eq_none_iff.1 h
  refine fault?_eq_none_iff.2 ⟨hversion.hasSegment_eq.trans hsegment,
    fun hmem => hcolon (hversion.subset hmem), ?_, ?_⟩
  · intro hnone hmem
    cases hrelease with
    | none => exact hdash rfl (hversion.subset hmem)
    | some _ => cases hnone
  · intro r' hr'
    cases hrelease with
    | none => cases hr'
    | @some a b hab =>
      obtain rfl := Option.some.inj hr'
      obtain ⟨hrsegment, hrdash, hrcolon⟩ := hparts _ rfl
      exact ⟨hab.hasSegment_eq.trans hrsegment, fun hmem => hrdash (hab.subset hmem),
        fun hmem => hrcolon (hab.subset hmem)⟩

theorem map_segments_of_abridges {short long : Option String}
    (h : Option.Rel Abridges short long) : short.map segments = long.map segments := by
  cases h with
  | none => rfl
  | some h => exact congrArg some h.segments_eq

/-- Abridged parts make an edition that compares as equal. -/
theorem compare_eq_of_abridges {a b : Edition} (hepoch : a.epoch = b.epoch)
    (hversion : Abridges a.version b.version) (hrelease : Option.Rel Abridges a.release b.release) :
    a.compare b = .eq :=
  compare_eq_eq_iff.2 ⟨hepoch, hversion.segments_eq, map_segments_of_abridges hrelease⟩

/-! ## The written form -/

/-- The numeral that is written for an epoch; zero is left out. -/
def epochNumeral (epoch : UInt64) : List Char :=
  if epoch = 0 then [] else epoch.toNat.repr.toList

/-- What is written in front of the version. -/
def epochPrefix (epoch : UInt64) : List Char :=
  if epoch = 0 then [] else epochNumeral epoch ++ [':']

theorem toList_render (e : Edition) : e.render.toList = epochPrefix e.epoch ++ e.writtenParts := by
  unfold render epochPrefix epochNumeral writtenParts
  cases e.release <;> split <;> simp

theorem isDigit_of_mem_epochNumeral {epoch : UInt64} {c : Char} (h : c ∈ epochNumeral epoch) :
    c.isDigit = true := by
  unfold epochNumeral at h
  split at h
  · cases h
  · exact isDigit_of_mem_repr h

theorem epochText_epochPrefix (epoch : UInt64) : EpochText epoch (epochPrefix epoch) := by
  unfold epochPrefix epochNumeral
  split
  · rename_i hzero
    exact .absent hzero
  · exact .numeral (.inl rfl) (isNumeral_repr epoch)

/-- Editions that are written the same have the same parts. -/
theorem render_injective {e f : Edition} (h : e.render = f.render) : e = f := by
  rw [← String.toList_inj, toList_render, toList_render] at h
  exact eq_of_append_writtenParts (epochText_epochPrefix _) (epochText_epochPrefix _) h

/-! ## Trimming the written form -/

theorem solid_version (e : Edition) : Solid e.version.toList :=
  solid_of_hasSegment (fault?_eq_none_iff.1 e.faultless).1

theorem solid_release {e : Edition} {release : String} (h : e.release = some release) :
    Solid release.toList :=
  solid_of_hasSegment ((fault?_eq_none_iff.1 e.faultless).2.2.2 release h).1

/-- The edition without the blanks that its written form starts with.  Behind an epoch, blanks at
the start of the version stand inside the form. -/
def trimStart (e : Edition) : Edition where
  epoch := e.epoch
  version := if e.epoch = 0 then Text.trimStart e.version else e.version
  release := e.release
  faultless := faultless_of_abridges e.faultless (Abridges.trimStart _).ite (Abridges.refl_option _)

/-- The edition without the blanks that its written form ends with. -/
def trimEnd (e : Edition) : Edition where
  epoch := e.epoch
  version := if e.release = none then Text.trimEnd e.version else e.version
  release := e.release.map Text.trimEnd
  faultless :=
    faultless_of_abridges e.faultless (Abridges.trimEnd _).ite (Abridges.map Abridges.trimEnd _)

/-- The edition that is read from the written form. -/
def trimmed (e : Edition) : Edition :=
  e.trimStart.trimEnd

/-- The part that ends the written form. -/
def lastPart (e : Edition) : String :=
  e.release.getD e.version

/-- What is written in front of the last part. -/
def front (e : Edition) : List Char :=
  epochPrefix e.epoch ++ if e.release = none then [] else e.version.toList ++ ['-']

theorem toList_render_eq_front (e : Edition) : e.render.toList = e.front ++ e.lastPart.toList := by
  rw [toList_render, writtenParts, front, lastPart]
  cases e.release <;> simp

theorem solid_lastPart (e : Edition) : Solid e.lastPart.toList := by
  unfold lastPart
  cases hr : e.release with
  | none => exact e.solid_version
  | some release => exact solid_release hr

/-- Blanks at the start of the written form stand at the start of the version. -/
theorem startsBlank_render (e : Edition) :
    startsBlank e.render.toList = (decide (e.epoch = 0) && startsBlank e.version.toList) := by
  rw [toList_render]
  by_cases hzero : e.epoch = 0
  · rw [epochPrefix, if_pos hzero, List.nil_append, writtenParts,
      startsBlank_append e.solid_version.ne_nil]
    simp [hzero]
  · have hne : epochNumeral e.epoch ≠ [] := by simp [epochNumeral, hzero]
    obtain ⟨digit, rest, hnumeral⟩ := List.exists_cons_of_ne_nil hne
    have hdigit : isBlank digit = false :=
      isBlank_of_isDigit (isDigit_of_mem_epochNumeral (hnumeral ▸ List.mem_cons_self))
    simp [epochPrefix, hzero, hnumeral, startsBlank, hdigit]

/-- Blanks at the end stand at the end of the last part, whatever is written in front. -/
theorem endsBlank_append_writtenParts (before : List Char) (e : Edition) :
    endsBlank (before ++ e.writtenParts) = endsBlank e.lastPart.toList := by
  obtain ⟨inner, hparts⟩ : ∃ inner, e.writtenParts = inner ++ e.lastPart.toList := by
    unfold writtenParts lastPart
    cases e.release with
    | none => exact ⟨[], by simp⟩
    | some release => exact ⟨e.version.toList ++ ['-'], by simp⟩
  rw [hparts, ← List.append_assoc, endsBlank_append e.solid_lastPart.ne_nil]

theorem endsBlank_render (e : Edition) :
    endsBlank e.render.toList = endsBlank e.lastPart.toList := by
  rw [toList_render, endsBlank_append_writtenParts]

theorem toList_render_trimStart (e : Edition) :
    e.trimStart.render.toList = e.render.toList.dropWhile isBlank := by
  by_cases hzero : e.epoch = 0
  · simp only [toList_render, writtenParts, trimStart, epochPrefix, hzero, if_true,
      toList_trimStart, List.nil_append, e.solid_version.dropWhile_append]
  · have hsame : e.trimStart = e := ext_parts rfl (if_neg hzero) rfl
    have hstart : startsBlank e.render.toList = false := by simp [startsBlank_render, hzero]
    rw [hsame, dropWhile_eq_self_iff.2 hstart]

theorem front_trimEnd (e : Edition) : e.trimEnd.front = e.front := by
  cases hr : e.release <;> simp [front, trimEnd, hr]

theorem lastPart_trimEnd (e : Edition) : e.trimEnd.lastPart = Text.trimEnd e.lastPart := by
  cases hr : e.release <;> simp [lastPart, trimEnd, hr]

theorem toList_render_trimEnd (e : Edition) :
    e.trimEnd.render.toList = dropBlankEnd e.render.toList := by
  rw [toList_render_eq_front, front_trimEnd, lastPart_trimEnd, toList_trimEnd,
    toList_render_eq_front, e.solid_lastPart.dropBlankEnd_append]

theorem toList_render_trimmed (e : Edition) :
    e.trimmed.render.toList = trimChars e.render.toList := by
  rw [trimmed, toList_render_trimEnd, toList_render_trimStart, trimChars]

theorem compare_trimmed (e : Edition) : e.trimmed.compare e = .eq := by
  have hstart : e.trimStart.compare e = .eq :=
    compare_eq_of_abridges rfl (Abridges.trimStart _).ite (Abridges.refl_option _)
  have hend : e.trimmed.compare e.trimStart = .eq :=
    compare_eq_of_abridges rfl (Abridges.trimEnd _).ite (Abridges.map Abridges.trimEnd _)
  exact Std.TransCmp.eq_trans hend hstart

/-! ## The round trip -/

/-- An edition is read back as the edition that is written without the blanks at both ends. -/
theorem parse_render (e : Edition) : parse e.render = .ok e.trimmed := by
  rw [parse_eq_ok_iff_writtenParts, ← toList_render_trimmed]
  exact ⟨_, epochText_epochPrefix _, toList_render _⟩

theorem trimmed_eq_self_iff {e : Edition} :
    e.trimmed = e ↔ startsBlank e.render.toList = false ∧ endsBlank e.render.toList = false := by
  rw [← trimChars_eq_self_iff, ← toList_render_trimmed, String.toList_inj]
  exact ⟨fun h => congrArg render h, render_injective⟩

/-- **The written form is faithful up to outer blanks.**  It determines the parts of an edition, it
always reads back to an edition that compares as equal, and that edition has the same parts exactly
if no blank stands at either end of the form. -/
theorem render_faithful (e f : Edition) :
    (e.render = f.render →
      e.epoch = f.epoch ∧ e.version = f.version ∧ e.release = f.release) ∧
    ∃ back, parse e.render = .ok back ∧ back.compare e = .eq ∧
      ((back.epoch = e.epoch ∧ back.version = e.version ∧ back.release = e.release) ↔
        startsBlank e.render.toList = false ∧ endsBlank e.render.toList = false) := by
  constructor
  · intro h
    obtain rfl := render_injective h
    exact ⟨rfl, rfl, rfl⟩
  · refine ⟨e.trimmed, parse_render e, compare_trimmed e, ?_⟩
    rw [← trimmed_eq_self_iff]
    constructor
    · rintro ⟨hepoch, hversion, hrelease⟩
      exact ext_parts hepoch hversion hrelease
    · intro h
      rw [h]
      exact ⟨rfl, rfl, rfl⟩

/-- What has been read ends without a blank. -/
theorem endsBlank_of_parse {s : String} {e : Edition} (h : parse s = .ok e) :
    endsBlank e.lastPart.toList = false := by
  obtain ⟨front, -, htext⟩ := parse_eq_ok_iff_writtenParts.1 h
  rw [← endsBlank_append_writtenParts front, ← htext]
  exact endsBlank_trimChars _

/-- **The editions whose parts survive.**  The parts of an edition are read back from its written
form exactly if its last part ends without a blank and, where no epoch is written in front of it,
the version starts without one.  Of an edition that was read itself, only the latter is
in question. -/
theorem parse_render_eq_iff (e : Edition) :
    (parse e.render = .ok e ↔
      (e.epoch = 0 → startsBlank e.version.toList = false) ∧
        endsBlank e.lastPart.toList = false) ∧
    ∀ s, parse s = .ok e →
      (parse e.render = .ok e ↔ (e.epoch = 0 → startsBlank e.version.toList = false)) := by
  have hiff : parse e.render = .ok e ↔
      (e.epoch = 0 → startsBlank e.version.toList = false) ∧
        endsBlank e.lastPart.toList = false := by
    rw [parse_render, Except.ok.injEq, trimmed_eq_self_iff, startsBlank_render, endsBlank_render]
    simp
  refine ⟨hiff, fun s hs => ?_⟩
  rw [hiff]
  exact ⟨fun h => h.1, fun h => ⟨h, endsBlank_of_parse hs⟩⟩

/-- Behind an epoch that is written, a blank in front of the version survives. -/
theorem parse_render_of_blank_behind_epoch :
    ∃ e, parse "1: 1" = .ok e ∧ e.version = " 1" ∧ parse e.render = .ok e := by
  refine ⟨⟨1, " 1", none, by decide⟩, ?_⟩
  have hread : parse "1: 1" = .ok ⟨1, " 1", none, by decide⟩ :=
    parse_eq_ok_iff.2 ⟨['1'], by decide, rfl⟩
  exact ⟨hread, rfl, ((parse_render_eq_iff _).2 _ hread).2 (by decide)⟩

/-- A blank behind the colon of an empty epoch is kept in the version, and is lost from it once the
edition is written and read again. -/
theorem parse_render_of_blank_version :
    ∃ e back, ofParts 0 " 1" none = .ok e ∧ parse ": 1" = .ok e ∧
      parse e.render = .ok back ∧ e.version = " 1" ∧ back.version = "1" := by
  refine ⟨⟨0, " 1", none, by decide⟩, ⟨0, "1", none, by decide⟩, ?_, ?_, ?_, rfl, rfl⟩
  · exact ofParts_eq_ok_iff.2 ⟨rfl, rfl, rfl⟩
  · exact parse_eq_ok_iff.2 ⟨[], by decide, rfl⟩
  · exact parse_eq_ok_iff.2 ⟨[], by decide, rfl⟩

/-! ## Written forms that are words -/

theorem isBlank_of_mem_epochPrefix {epoch : UInt64} {c : Char} (h : c ∈ epochPrefix epoch) :
    isBlank c = false := by
  unfold epochPrefix at h
  split at h
  · cases h
  · rcases List.mem_append.1 h with hdigit | hcolon
    · exact isBlank_of_isDigit (isDigit_of_mem_epochNumeral hdigit)
    · rw [List.mem_singleton.1 hcolon]
      decide

theorem render_ne_empty (e : Edition) : e.render ≠ "" := by
  rw [Ne, ← String.toList_inj, toList_render_eq_front]
  simpa using fun _ => e.solid_lastPart.ne_nil

theorem isWord_render_iff {e : Edition} : IsWord e.render ↔ hasBlank e.render = false := by
  rw [isWord_iff]
  exact and_iff_right e.render_ne_empty

/-- There are no blanks to lose from a word. -/
theorem parse_render_of_isWord {e : Edition} (h : IsWord e.render) : parse e.render = .ok e := by
  have hends := trimChars_eq_self_iff.1 (trimChars_eq_self_of_forall h.2)
  rw [parse_render, trimmed_eq_self_iff.2 hends]

/-- What is read from a word is written as a word: its parts are taken from the word, and all that
may be written in addition is an epoch. -/
theorem isWord_render_of_parse {s : String} (hs : IsWord s) {e : Edition} (h : parse s = .ok e) :
    IsWord e.render := by
  obtain ⟨front, -, htext⟩ := parse_eq_ok_iff_writtenParts.1 h
  rw [trimChars_eq_self_of_forall hs.2] at htext
  refine ⟨e.render_ne_empty, fun c hc => ?_⟩
  rw [toList_render] at hc
  rcases List.mem_append.1 hc with hepoch | hparts
  · exact isBlank_of_mem_epochPrefix hepoch
  · refine hs.2 c ?_
    rw [htext]
    exact List.mem_append_right _ hparts

end Edition

end PackagePool
