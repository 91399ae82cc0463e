import PackagePool.Capability.Basic
import PackagePool.Filter.Attribute
import PackagePool.Proofs.Version.MatchOrder

/-!
# Ranges

A range is an operator and an edition.  Whether a provided edition is in the range is decided by the
comparison that matches, in which a missing release is equal to any, and not by the order of
editions (`satisfiedBy_eq_yes_iff`).  This module says what the ranges inherit from that order.

An edition filter uses the order itself, so it may disagree with a requirement of the same range,
but only across a gap between the releases (`matchCompare_coarsens_compare`).  And a range that is
open upwards is not left by a newer edition, nor one that is open downwards by an older one, unless
the release of the one is compared and that of the other is missing (`satisfiedBy_monotone`).
-/

namespace PackagePool

/-- What passes a lower bound does so again higher up, and what passes an upper bound lower down. -/
theorem RelOp.holds_of_cut {op : RelOp} {low high : Ordering} (hlt : high = .lt → low = .lt)
    (hgt : low = .gt → high = .gt) :
    (op = .ge ∨ op = .gt → op.holds low = true → op.holds high = true) ∧
      (op = .le ∨ op = .lt → op.holds high = true → op.holds low = true) := by
  constructor
  · rintro (rfl | rfl) h
    · simp only [holds, bne_iff_ne] at h ⊢
      exact fun hhigh => h (hlt hhigh)
    · simp only [holds, beq_iff_eq] at h ⊢
      exact hgt h
  · rintro (rfl | rfl) h
    · simp only [holds, bne_iff_ne] at h ⊢
      exact fun hlow => h (hgt hlow)
    · simp only [holds, beq_iff_eq] at h ⊢
      exact hlt h

namespace Capability

open Text

/-! ## Requirements and provided editions -/

/-- A requirement with a range asks about the editions only. -/
theorem satisfiedBy_eq_yes_iff {name : String} {op : RelOp} {e x : Edition}
    {required provided : Capability} (hrequired : versioned name op e = .ok required)
    (hname : provided.name = name) (hx : provided.edition? = some x) :
    required.satisfiedBy provided = .yes ↔ op.holds (x.matchCompare e) = true := by
  obtain ⟨rfl, hop, hrange⟩ := parts_of_versioned hrequired
  obtain ⟨range, hrange', rfl⟩ := Option.map_eq_some_iff.1 hx
  rw [satisfiedBy, if_pos hname.symm, hrange, hrange', matchRange, Outcome.ofBool]
  cases op.holds (range.edition.matchCompare e) <;> simp

/-! ## The order of editions and the ranges -/

/-- **Matching is a coarsening of the order of editions.**  It turns around, its strict part is
transitive, and it departs from the order exactly across a gap between releases, where it holds the
editions for equal and the order does not.  Elsewhere an edition passes the filter of an operator
and an edition exactly if a requirement of that range is satisfied by it. -/
theorem matchCompare_coarsens_compare :
    (∀ a b : Edition, a.matchCompare b = (b.matchCompare a).swap) ∧
    (∀ a b : Edition, (a.matchCompare b = a.compare b ↔ ¬ a.ReleaseGap b) ∧
      (a.ReleaseGap b → a.matchCompare b = .eq ∧ a.compare b ≠ .eq)) ∧
    (∀ a b c : Edition, a.matchCompare b = .lt → b.matchCompare c = .lt →
      a.matchCompare c = .lt) ∧
    ∀ name, IsWord name → ∀ op : RelOp, op.qualifies = true → ∀ (x : Resolvable) (e : Edition),
      ∃ required provided, versioned name op e = .ok required ∧
        versioned name .eq x.edition = .ok provided ∧
        (¬ x.edition.ReleaseGap e →
          ((IdentityTest.editionIs op e).holds x = true ↔
            required.satisfiedBy provided = .yes)) := by
  refine ⟨Edition.matchCompare_swap, ?agreement, ?transitivity, ?filter⟩
  case agreement =>
    exact fun a b => ⟨Edition.matchCompare_eq_compare_iff,
      Edition.ReleaseGap.matchCompare_and_compare⟩
  case transitivity =>
    exact fun a b c => Edition.matchCompare_lt_trans
  case filter =>
    intro name hname op hop x e
    obtain ⟨required, hrequired⟩ := exists_versioned hname hop e
    have heq : RelOp.eq.qualifies = true := rfl
    obtain ⟨provided, hprovided⟩ := exists_versioned hname heq x.edition
    obtain ⟨hname', hop', hrange⟩ := parts_of_versioned hprovided
    have hx : provided.edition? = some x.edition := by
      rw [edition?, hrange, Option.map_some]
    refine ⟨required, provided, hrequired, hprovided, fun hgap => ?_⟩
    rw [satisfiedBy_eq_yes_iff hrequired hname' hx, Edition.matchCompare_eq_compare_iff.2 hgap]
    exact Iff.rfl

/-- A provided release is compared with the required one, by the filter and by the requirement. -/
theorem matchCompare_coarsens_compare_shell :
    let required : Edition := ⟨0, "5.1", some "2", by decide⟩
    let shell : Resolvable :=
      ⟨.package, "sh", ⟨0, "5.1", some "3", by decide⟩, .noarch, isWord_iff.2 (by decide)⟩
    shell.edition.matchCompare required = (required.matchCompare shell.edition).swap ∧
      ¬ shell.edition.ReleaseGap required ∧
      ∃ c d, versioned "sh" .ge required = .ok c ∧ versioned "sh" .eq shell.edition = .ok d ∧
        ((IdentityTest.editionIs .ge required).holds shell = true ↔ c.satisfiedBy d = .yes) := by
  intro required shell
  have hgap : ¬ shell.edition.ReleaseGap required := fun hgap => hgap.release_ne rfl
  obtain ⟨hswap, -, -, hfilter⟩ := matchCompare_coarsens_compare
  obtain ⟨c, d, hc, hd, hiff⟩ :=
    hfilter "sh" (isWord_iff.2 (by decide)) .ge (by decide) shell required
  exact ⟨hswap _ _, hgap, c, d, hc, hd, hiff hgap⟩

/-- **Ranges are monotone.**  Let `p` and `q` provide a name at editions of which that of `q` is not
older.  If the required edition has no release, or `p` and `q` both provide one or both provide
none, then what satisfies a lower bound at `p` does so at `q`, and an upper bound at `q` does so at
`p`. -/
theorem satisfiedBy_monotone {name : String} {e x y : Edition} {p q : Capability}
    (hp : p.name = name) (hq : q.name = name) (hx : p.edition? = some x) (hy : q.edition? = some y)
    (hle : x.compare y ≠ .gt)
    (hrelease : e.release = none ∨ x.release.isSome = y.release.isSome) {op : RelOp}
    {required : Capability} (hrequired : versioned name op e = .ok required) :
    (op = .ge ∨ op = .gt → required.satisfiedBy p = .yes → required.satisfiedBy q = .yes) ∧
      (op = .le ∨ op = .lt → required.satisfiedBy q = .yes → required.satisfiedBy p = .yes) := by
  rw [satisfiedBy_eq_yes_iff hrequired hp hx, satisfiedBy_eq_yes_iff hrequired hq hy]
  obtain ⟨hlt, hgt⟩ := Edition.matchCompare_cut (Ordering.ne_gt_iff_isLE.1 hle) hrelease
  exact RelOp.holds_of_cut hlt hgt

/-- What satisfies `sh >= 5.1-3` at release 3 of `5.1` does so at release 1 of `5.2`. -/
theorem satisfiedBy_monotone_shell :
    let sh (op : RelOp) (hop : op.qualifies = true) (e : Edition) : Capability :=
      ⟨"sh", some ⟨op, e, hop⟩, isWord_iff.2 (by decide)⟩
    let old : Edition := ⟨0, "5.1", some "3", by decide⟩
    let new : Edition := ⟨0, "5.2", some "1", by decide⟩
    old.compare new ≠ .gt ∧ versioned "sh" .ge old = .ok (sh .ge rfl old) ∧
      (sh .ge rfl old).satisfiedBy (sh .eq rfl old) = .yes ∧
      (sh .ge rfl old).satisfiedBy (sh .eq rfl new) = .yes := by
  intro sh old new
  have hle : old.compare new ≠ .gt := by decide
  have hrequired : versioned "sh" .ge old = .ok (sh .ge rfl old) := rfl
  have hold : (sh .ge rfl old).satisfiedBy (sh .eq rfl old) = .yes := by decide
  have hp : (sh .eq rfl old).name = "sh" := rfl
  have hq : (sh .eq rfl new).name = "sh" := rfl
  have hx : (sh .eq rfl old).edition? = some old := rfl
  have hy : (sh .eq rfl new).edition? = some new := rfl
  have hrelease : old.release.isSome = new.release.isSome := rfl
  refine ⟨hle, hrequired, hold, ?_⟩
  exact (satisfiedBy_monotone hp hq hx hy hle (.inr hrelease) hrequired).1 (.inl rfl) hold

/-- Where the release is missing on one side only, a newer edition may leave the range. -/
example :
    let sh (op : RelOp) (hop : op.qualifies = true) (e : Edition) : Capability :=
      ⟨"sh", some ⟨op, e, hop⟩, isWord_iff.2 (by decide)⟩
    let bare : Edition := ⟨0, "5.1", none, by decide⟩
    let released (release : String) (h : Edition.fault? "5.1" (some release) = none) : Edition :=
      ⟨0, "5.1", some release, h⟩
    let required := sh .ge rfl (released "3" (by decide))
    bare.compare (released "1" (by decide)) = .lt ∧
      required.satisfiedBy (sh .eq rfl bare) = .yes ∧
      required.satisfiedBy (sh .eq rfl (released "1" (by decide))) = .no := by decide

end Capability

end PackagePool
