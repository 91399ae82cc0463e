import PackagePool.Proofs.Resolvable.Order
import PackagePool.Proofs.Version.RoundTrip

/-!
# Equal resolvables, written differently

Resolvables are equal if their parts compare as equal, and editions that compare as equal need not
be written the same: `1.01` and `1.1` are one edition.  So equality does not make the accessors of
resolvables agree, nor their written forms.  `beq_iff_agreesUpToSpelling` says what it does make
agree: everything but the separators and the leading zeros in the version and the release.

What is written around the version and the release is made of separators and of parts that equal
resolvables share, so their written forms have the same segments as well (`segments_render`).  They
are the same only if the editions are spelled the same.
-/

namespace PackagePool

open Text Version

namespace Edition

theorem charSegments_writtenParts (e : Edition) :
    charSegments e.writtenParts = segments e.version ++ e.releaseSegments.getD [] := by
  have hdash : RunKind.ofChar? '-' = none := by decide
  rw [writtenParts, releaseSegments, segments_eq_charSegments]
  cases e.release with
  | none =>
    rw [Option.elim_none, List.append_nil, Option.map_none, Option.getD_none, List.append_nil]
  | some release =>
    rw [Option.elim_some, charSegments_append_separator hdash, Option.map_some, Option.getD_some,
      segments_eq_charSegments release]

/-- The segments of the written form are those of the parts. -/
theorem segments_render (e : Edition) :
    segments e.render = charSegments (epochNumeral e.epoch) ++
      (segments e.version ++ e.releaseSegments.getD []) := by
  have hcolon : RunKind.ofChar? ':' = none := by decide
  rw [segments_eq_charSegments, toList_render, ← charSegments_writtenParts, epochPrefix]
  by_cases hzero : e.epoch = 0
  · rw [if_pos hzero, epochNumeral, if_pos hzero]
    rfl
  · rw [if_neg hzero, List.append_assoc, List.singleton_append,
      charSegments_append_separator hcolon]

end Edition

namespace Resolvable

theorem toList_render (r : Resolvable) :
    r.render.toList = '[' :: (r.kind.name.toList ++ ']' :: (r.name.toList ++ '-' ::
      (r.edition.render.toList ++ '.' :: r.arch.name.toList))) := by
  simp [render]

/-- The segments of the written form are those of the four parts. -/
theorem segments_render (r : Resolvable) :
    segments r.render = segments r.kind.name ++ (segments r.name ++
      (segments r.edition.render ++ segments r.arch.name)) := by
  have hopen : RunKind.ofChar? '[' = none := by decide
  have hclose : RunKind.ofChar? ']' = none := by decide
  have hdash : RunKind.ofChar? '-' = none := by decide
  have hdot : RunKind.ofChar? '.' = none := by decide
  simp only [segments_eq_charSegments, toList_render, charSegments_cons_separator hopen,
    charSegments_append_separator hclose, charSegments_append_separator hdash,
    charSegments_append_separator hdot]

/-- The resolvables have the same parts, except that the version and the release of their editions
may be spelled with other separators and other leading zeros. -/
structure AgreesUpToSpelling (x y : Resolvable) : Prop where
  kind_eq : x.kind = y.kind
  name_eq : x.name = y.name
  arch_eq : x.arch = y.arch
  epoch_eq : x.edition.epoch = y.edition.epoch
  version_segments : segments x.edition.version = segments y.edition.version
  release_segments : x.edition.releaseSegments = y.edition.releaseSegments

theorem beq_iff_parts {x y : Resolvable} : (x == y) = true ↔ x.AgreesUpToSpelling y := by
  rw [beq_iff, Edition.beq_iff_compare, Edition.compare_eq_eq_iff]
  constructor
  · rintro ⟨hkind, hname, ⟨hepoch, hversion, hrelease⟩, harch⟩
    exact ⟨hkind, hname, harch, hepoch, hversion, hrelease⟩
  · intro h
    exact ⟨h.kind_eq, h.name_eq, ⟨h.epoch_eq, h.version_segments, h.release_segments⟩, h.arch_eq⟩

namespace AgreesUpToSpelling

variable {x y : Resolvable}

/-- The separators in between belong to no segment. -/
theorem render_segments (h : x.AgreesUpToSpelling y) : segments x.render = segments y.render := by
  simp only [Resolvable.segments_render, Edition.segments_render, h.kind_eq, h.name_eq, h.arch_eq,
    h.epoch_eq, h.version_segments, h.release_segments]

/-- Around the edition the written forms are the same, and an edition can be read off its own. -/
theorem render_eq_iff (h : x.AgreesUpToSpelling y) :
    x.render = y.render ↔
      x.edition.version = y.edition.version ∧ x.edition.release = y.edition.release := by
  have hedition : x.render = y.render ↔ x.edition.render = y.edition.render := by
    rw [← String.toList_inj, toList_render, toList_render, h.kind_eq, h.name_eq, h.arch_eq,
      ← String.toList_inj]
    simp
  rw [hedition]
  constructor
  · intro hrender
    have hsame := Edition.render_injective hrender
    exact ⟨congrArg _ hsame, congrArg _ hsame⟩
  · rintro ⟨hversion, hrelease⟩
    exact congrArg _ (Edition.ext_parts h.epoch_eq hversion hrelease)

end AgreesUpToSpelling

/-- **Equality of resolvables fixes everything but the spelling of the edition.**  Of the written
forms it fixes the segments, and they are the same exactly if the version and the release are. -/
theorem beq_iff_agreesUpToSpelling (x y : Resolvable) :
    ((x == y) = true ↔ x.AgreesUpToSpelling y) ∧
      ((x == y) = true → segments x.render = segments y.render ∧
        (x.render = y.render ↔
          x.edition.version = y.edition.version ∧ x.edition.release = y.edition.release)) := by
  refine ⟨beq_iff_parts, fun heq => ?_⟩
  have hparts := beq_iff_parts.1 heq
  exact ⟨hparts.render_segments, hparts.render_eq_iff⟩

/-- Other separators and another leading zero, and still the segments of the written forms are the
same. -/
theorem beq_iff_agreesUpToSpelling_dashes :
    let x : Resolvable := ⟨.package, "bash", ⟨0, "5.01", some "1", by decide⟩, .x86_64,
      isWord_iff.2 (by decide)⟩
    let y : Resolvable := ⟨.package, "bash", ⟨0, "5_1", some "1", by decide⟩, .x86_64,
      isWord_iff.2 (by decide)⟩
    (x == y) = true ∧ x.AgreesUpToSpelling y ∧ segments x.render = segments y.render ∧
      x.render ≠ y.render := by
  intro x y
  have heq : (x == y) = true := by decide
  obtain ⟨hiff, hrender⟩ := beq_iff_agreesUpToSpelling x y
  refine ⟨heq, hiff.1 heq, (hrender heq).1, fun hsame => ?_⟩
  have hversion : x.edition.version = y.edition.version := ((hrender heq).2.1 hsame).1
  exact absurd hversion (by decide)

/-- A leading zero is enough to tell equal resolvables apart, by the version of the edition as well
as by the written form. -/
theorem beq_of_leading_zero :
    ∃ old new : Edition, Edition.ofParts 0 "1.01" none = .ok old ∧
      Edition.ofParts 0 "1.1" none = .ok new ∧
      ∃ x y, ofParts .package "bash" old .x86_64 = .ok x ∧
        ofParts .package "bash" new .x86_64 = .ok y ∧
        (x == y) = true ∧ x.edition.version ≠ y.edition.version ∧ x.render ≠ y.render := by
  refine ⟨⟨0, "1.01", none, by decide⟩, ⟨0, "1.1", none, by decide⟩, rfl, rfl, ?_⟩
  refine ⟨⟨.package, "bash", _, .x86_64, isWord_iff.2 (by decide)⟩,
    ⟨.package, "bash", _, .x86_64, isWord_iff.2 (by decide)⟩, rfl, rfl, ?_, ?_, ?_⟩ <;> decide

end Resolvable

end PackagePool
