import PackagePool.Proofs.Capability.Grammar
import PackagePool.Proofs.Version.RoundTrip

/-!
# Reading back the written form of a capability

A capability is written with single blanks between its name, its operator and its edition, so it is
read back as these three words if the edition is written without blanks (`IsCompact`), and as
something else or nothing if not.  An edition that is read as part of a capability comes from one
word, and is therefore written as one: whatever the word looked like, none of the parts that were
taken from it is lost when it is written and read again.

The main result is `read_back_iff_compact`.  Capabilities are equal there as values, so they have
the same name, operator, epoch, version and release.
-/

namespace PackagePool

open Text

/-! ## Operators -/

namespace RelOp

theorem mem_qualifierSpellings_symbol {op : RelOp} (h : op.qualifies = true) :
    (op.symbol, op) ∈ qualifierSpellings := by
  revert h
  cases op <;> decide

theorem isWord_symbol {op : RelOp} (h : op.qualifies = true) : IsWord op.symbol := by
  rw [isWord_iff]
  revert h
  cases op <;> decide

end RelOp

namespace Capability

/-! ## The written form -/

/-- There is no edition, or it is written without blanks. -/
def IsCompact (c : Capability) : Prop :=
  ∀ e, c.edition? = some e → hasBlank e.render = false

theorem fields_render_of_range_eq_none {c : Capability} (h : c.range = none) :
    fields c.render = [c.name] := by
  rw [fields_eq_iff, render, h]
  exact .singleton c.name_isWord

theorem fields_render_of_range_eq_some {c : Capability} {range : Range} (h : c.range = some range)
    (hword : IsWord range.edition.render) :
    fields c.render = [c.name, range.op.symbol, range.edition.render] := by
  have hblank : isBlank ' ' = true := by decide
  have hrow := LaysOut.word_blank_append c.name_isWord hblank
    (.word_blank_append (RelOp.isWord_symbol range.qualifies) hblank (.singleton hword))
  rw [fields_eq_iff, render, h]
  simpa using hrow

/-! ## Reading -/

theorem parse_render_of_isCompact {c : Capability} (h : c.IsCompact) : parse c.render = .ok c := by
  rw [parse_eq_ok_iff]
  cases hrange : c.range with
  | none =>
    exact .bare (fields_render_of_range_eq_none hrange)
      (unversioned_eq_ok_iff.2 ⟨rfl, hrange⟩)
  | some range =>
    have hedition : c.edition? = some range.edition := by rw [edition?, hrange, Option.map_some]
    have hword : IsWord range.edition.render := Edition.isWord_render_iff.2 (h _ hedition)
    exact .ranged (fields_render_of_range_eq_some hrange hword)
      (RelOp.mem_qualifierSpellings_symbol range.qualifies) (Edition.parse_render_of_isWord hword)
      (versioned_eq_ok_iff.2 ⟨rfl, range.qualifies, hrange⟩)

theorem isCompact_of_unversioned {name : String} {c : Capability} (h : unversioned name = .ok c) :
    c.IsCompact := by
  intro e he
  rw [edition?, (unversioned_eq_ok_iff.1 h).2] at he
  cases he

theorem isCompact_iff_of_versioned {name : String} {op : RelOp} {e : Edition} {c : Capability}
    (h : versioned name op e = .ok c) : c.IsCompact ↔ hasBlank e.render = false := by
  obtain ⟨-, hop, hrange⟩ := versioned_eq_ok_iff.1 h
  have hedition : c.edition? = some e := by rw [edition?, hrange, Option.map_some]
  simp [IsCompact, hedition]

/-- The edition of a capability that was read comes from one of three words. -/
theorem Reads.unversioned_or_compact {s : String} {c : Capability} (h : Reads s c) :
    unversioned c.name = .ok c ∨
      ∃ op e, versioned c.name op e = .ok c ∧ hasBlank e.render = false := by
  cases h with
  | bare _ hbuilt =>
    obtain ⟨rfl, -⟩ := unversioned_eq_ok_iff.1 hbuilt
    exact .inl hbuilt
  | @ranged name op edition rel e hfields _ hedition hbuilt =>
    obtain ⟨rfl, -⟩ := versioned_eq_ok_iff.1 hbuilt
    have hword : IsWord edition := isWord_of_fields_eq hfields (by simp)
    have hcompact := Edition.isWord_render_iff.1 (Edition.isWord_render_of_parse hword hedition)
    exact .inr ⟨rel, e, hbuilt, hcompact⟩

theorem Reads.isCompact {s : String} {c : Capability} (h : Reads s c) : c.IsCompact := by
  rcases h.unversioned_or_compact with hbare | ⟨op, e, hbuilt, hcompact⟩
  · exact isCompact_of_unversioned hbare
  · exact (isCompact_iff_of_versioned hbuilt).2 hcompact

theorem parse_render_eq_ok_iff {c : Capability} : parse c.render = .ok c ↔ c.IsCompact :=
  ⟨fun h => (parse_eq_ok_iff.1 h).isCompact, parse_render_of_isCompact⟩

/-- **The capabilities that survive.**  A capability without a range is read back from its written
form, and one with a range exactly if its edition is written without blanks.  Every capability that
was read is of this kind, so it is read back, and is then written as before. -/
theorem read_back_iff_compact :
    (∀ name c, unversioned name = .ok c → parse c.render = .ok c) ∧
    (∀ name op e c, versioned name op e = .ok c →
      (parse c.render = .ok c ↔ hasBlank e.render = false)) ∧
    ∀ s c, parse s = .ok c →
      (unversioned c.name = .ok c ∨
        ∃ op e, versioned c.name op e = .ok c ∧ hasBlank e.render = false) ∧
      parse c.render = .ok c ∧ (parse c.render).map render = .ok c.render := by
  refine ⟨?bare, ?ranged, ?read⟩
  case bare =>
    intro name c h
    exact parse_render_eq_ok_iff.2 (isCompact_of_unversioned h)
  case ranged =>
    intro name op e c h
    rw [parse_render_eq_ok_iff, isCompact_iff_of_versioned h]
  case read =>
    intro s c h
    have hreads := parse_eq_ok_iff.1 h
    have hback := parse_render_of_isCompact hreads.isCompact
    refine ⟨hreads.unversioned_or_compact, hback, ?_⟩
    rw [hback]
    rfl

/-- An operator and an epoch that are written otherwise are no loss. -/
theorem read_back_iff_compact_shell :
    let edition : Edition := ⟨0, "5.1", some "3", by decide⟩
    let shell : Capability := ⟨"sh", some ⟨.eq, edition, rfl⟩, isWord_iff.2 (by decide)⟩
    let bare : Capability := ⟨"sh", none, isWord_iff.2 (by decide)⟩
    unversioned "sh" = .ok bare ∧ parse bare.render = .ok bare ∧
      versioned "sh" .eq edition = .ok shell ∧ hasBlank edition.render = false ∧
      parse "sh == +0:5.1-3" = .ok shell ∧ shell.render = "sh = 5.1-3" ∧
      parse shell.render = .ok shell := by
  intro edition shell bare
  obtain ⟨hbare, hranged, hread⟩ := read_back_iff_compact
  have hfields : fields "sh == +0:5.1-3" = ["sh", "==", "+0:5.1-3"] := by decide
  have hedition : Edition.parse "+0:5.1-3" = .ok edition :=
    Edition.parse_eq_ok_iff.2 ⟨['+', '0'], by decide, rfl⟩
  have hop : ("==", RelOp.eq) ∈ RelOp.qualifierSpellings := by decide
  have hparse : parse "sh == +0:5.1-3" = .ok shell :=
    parse_eq_ok_iff.2 (.ranged hfields hop hedition rfl)
  have hback := (hread _ _ hparse).2.1
  exact ⟨rfl, hbare "sh" bare rfl, rfl, (hranged "sh" .eq edition shell rfl).1 hback, hparse,
    by decide, hback⟩

end Capability

end PackagePool
