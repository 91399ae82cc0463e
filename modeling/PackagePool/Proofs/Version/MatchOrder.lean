import PackagePool.Proofs.Version.Order

/-!
# The comparison that matches ranges

Editions are compared in two ways.  Both start with the epoch and the version, the *stem* of an
edition, and differ in what they make of a missing release: in the order of editions it is below
every release, and in the comparison that matches ranges it is equal to each of them.

The second comparison is no order: `5.1-1` and `5.1-2` are both equal to `5.1` without being equal
to each other.  It is as close to one as that allows.  It turns around (`matchCompare_swap`), its
strict part is transitive (`matchCompare_lt_trans`), and it departs from the order of editions
exactly where the stems are equal and one of the two has a release (`matchCompare_eq_compare_iff`).
What matches strictly below an edition stays there further down in the order of editions, and what
matches above it further up, unless the step adds or drops a release that is asked for
(`matchCompare_cut`).
-/

namespace PackagePool

open Version

instance : Std.TransCmp compareText :=
  inferInstanceAs (Std.TransCmp (compareOn segments))

namespace Edition

variable {a b c : Edition}

/-! ## The stem -/

/-- The comparison of epochs and versions. -/
def compareStem (a b : Edition) : Ordering :=
  (Ord.compare a.epoch b.epoch).then (compareText a.version b.version)

instance : Std.TransCmp compareStem :=
  inferInstanceAs
    (Std.TransCmp (compareLex (compareOn epoch) (compareOn fun e => segments e.version)))

theorem compareStem_eq_eq_iff :
    a.compareStem b = .eq ↔ a.epoch = b.epoch ∧ compareText a.version b.version = .eq := by
  rw [compareStem, Ordering.then_eq_eq, Std.LawfulEqOrd.compare_eq_iff_eq]

theorem compare_eq_stem_then (a b : Edition) :
    a.compare b = (a.compareStem b).then (compareRelease a.release b.release) :=
  rfl

theorem matchCompare_eq_stem_then (a b : Edition) :
    a.matchCompare b = (a.compareStem b).then (matchRelease a.release b.release) :=
  rfl

/-- Editions that are in order have their stems in order. -/
theorem compareStem_isLE (h : (a.compare b).isLE = true) : (a.compareStem b).isLE = true := by
  rw [compare_eq_stem_then, Ordering.isLE_then_iff_and] at h
  exact h.1

/-! ## Where the two comparisons agree -/

theorem matchCompare_of_none (h : a.release = none ∨ b.release = none) :
    a.matchCompare b = a.compareStem b := by
  have hrelease : matchRelease a.release b.release = .eq := by
    rcases h with h | h
    · rw [h]
      rfl
    · rw [h]
      cases a.release <;> rfl
  rw [matchCompare_eq_stem_then, hrelease, Ordering.then_eq]

/-- If one edition alone has a release, it is not looked at. -/
theorem matchCompare_of_isSome_ne (h : a.release.isSome ≠ b.release.isSome) :
    a.matchCompare b = a.compareStem b := by
  refine matchCompare_of_none ?_
  cases ha : a.release with
  | none => exact .inl rfl
  | some r =>
    cases hb : b.release with
    | none => exact .inr rfl
    | some s => simp [ha, hb] at h

/-- If both editions have a release, or none, the comparisons agree. -/
theorem matchCompare_of_isSome_eq (h : a.release.isSome = b.release.isSome) :
    a.matchCompare b = a.compare b := by
  have hrelease : matchRelease a.release b.release = compareRelease a.release b.release := by
    cases ha : a.release with
    | none =>
      cases hb : b.release with
      | none => rfl
      | some r => simp [ha, hb] at h
    | some r =>
      cases hb : b.release with
      | none => simp [ha, hb] at h
      | some s => rfl
  rw [matchCompare_eq_stem_then, compare_eq_stem_then, hrelease]

/-- The stems are equal, and one of the editions has a release while the other has none. -/
structure ReleaseGap (a b : Edition) : Prop where
  epoch_eq : a.epoch = b.epoch
  version_eq : compareText a.version b.version = .eq
  release_ne : a.release.isSome ≠ b.release.isSome

theorem compareRelease_ne_eq (h : a.release.isSome ≠ b.release.isSome) :
    compareRelease a.release b.release ≠ .eq := by
  intro heq
  rw [compareRelease_eq, Std.LawfulEqOrd.compare_eq_iff_eq] at heq
  have hsome := congrArg Option.isSome heq
  rw [Option.isSome_map, Option.isSome_map] at hsome
  exact h hsome

/-- Across a gap the editions match, and one of them is newer. -/
theorem ReleaseGap.matchCompare_and_compare (h : ReleaseGap a b) :
    a.matchCompare b = .eq ∧ a.compare b ≠ .eq := by
  have hstem : a.compareStem b = .eq := compareStem_eq_eq_iff.2 ⟨h.epoch_eq, h.version_eq⟩
  constructor
  · rw [matchCompare_of_isSome_ne h.release_ne, hstem]
  · rw [compare_eq_stem_then, hstem]
    exact compareRelease_ne_eq h.release_ne

theorem matchCompare_eq_compare_iff : a.matchCompare b = a.compare b ↔ ¬ a.ReleaseGap b := by
  constructor
  · intro heq hgap
    obtain ⟨hmatch, hcompare⟩ := hgap.matchCompare_and_compare
    exact hcompare (heq.symm.trans hmatch)
  · intro hgap
    by_cases hrelease : a.release.isSome = b.release.isSome
    · exact matchCompare_of_isSome_eq hrelease
    · have hstem : a.compareStem b ≠ .eq := fun heq =>
        hgap ⟨(compareStem_eq_eq_iff.1 heq).1, (compareStem_eq_eq_iff.1 heq).2, hrelease⟩
      rw [matchCompare_of_isSome_ne hrelease, compare_eq_stem_then]
      -- a stem that decides leaves the releases unread
      cases h : a.compareStem b with
      | lt => rfl
      | eq => exact absurd h hstem
      | gt => rfl

/-! ## The laws that are left -/

theorem matchCompare_swap (a b : Edition) : a.matchCompare b = (b.matchCompare a).swap := by
  by_cases hrelease : a.release.isSome = b.release.isSome
  · rw [matchCompare_of_isSome_eq hrelease, matchCompare_of_isSome_eq hrelease.symm]
    exact Std.OrientedCmp.eq_swap
  · rw [matchCompare_of_isSome_ne hrelease, matchCompare_of_isSome_ne (Ne.symm hrelease)]
    exact Std.OrientedCmp.eq_swap

theorem matchRelease_eq_lt_iff {r s : Option String} :
    matchRelease r s = .lt ↔ ∃ x ∈ r, ∃ y ∈ s, compareText x y = .lt := by
  cases r <;> cases s <;> simp [matchRelease]

theorem matchCompare_eq_lt_iff :
    a.matchCompare b = .lt ↔
      a.compareStem b = .lt ∨
        a.compareStem b = .eq ∧ ∃ r ∈ a.release, ∃ s ∈ b.release, compareText r s = .lt := by
  rw [matchCompare_eq_stem_then, Ordering.then_eq_lt, matchRelease_eq_lt_iff]

/-- Strictly below is transitive, although matching is not. -/
theorem matchCompare_lt_trans (hab : a.matchCompare b = .lt) (hbc : b.matchCompare c = .lt) :
    a.matchCompare c = .lt := by
  rw [matchCompare_eq_lt_iff] at hab hbc ⊢
  rcases hab with hab | ⟨hab, r, hr, s, hs, hrs⟩
  · rcases hbc with hbc | ⟨hbc, -⟩
    · exact .inl (Std.TransCmp.lt_trans hab hbc)
    · exact .inl (Std.TransCmp.lt_of_lt_of_eq hab hbc)
  · rcases hbc with hbc | ⟨hbc, s', hs', t, ht, hst⟩
    · exact .inl (Std.TransCmp.lt_of_eq_of_lt hab hbc)
    · obtain rfl := Option.mem_unique hs hs'
      exact .inr ⟨Std.TransCmp.eq_trans hab hbc, r, hr, t, ht, Std.TransCmp.lt_trans hrs hst⟩

/-! ## Cuts -/

/-- An edition cuts the others: what lies below something below it is below it, and what lies above
something above it is above it. -/
theorem cut_of_isLE {cmp : Edition → Edition → Ordering} [Std.TransCmp cmp] {x y : Edition}
    (hle : (cmp x y).isLE = true) (e : Edition) :
    (cmp y e = .lt → cmp x e = .lt) ∧ (cmp x e = .gt → cmp y e = .gt) :=
  ⟨Std.TransCmp.lt_of_isLE_of_lt hle,
    Std.TransCmp.gt_of_isGE_of_gt (Std.OrientedCmp.isGE_iff_isLE.2 hle)⟩

/-- Matching cuts the editions too, as long as a release is not compared for the one and left out
for the other: then both matches compare stems, or both compare whole editions. -/
theorem matchCompare_cut {x y e : Edition} (hle : (x.compare y).isLE = true)
    (hrelease : e.release = none ∨ x.release.isSome = y.release.isSome) :
    (y.matchCompare e = .lt → x.matchCompare e = .lt) ∧
      (x.matchCompare e = .gt → y.matchCompare e = .gt) := by
  have hstems := cut_of_isLE (compareStem_isLE hle) e
  rcases hrelease with he | hsame
  · rwa [matchCompare_of_none (.inr he), matchCompare_of_none (.inr he)]
  · by_cases hx : x.release.isSome = e.release.isSome
    · rw [matchCompare_of_isSome_eq hx, matchCompare_of_isSome_eq (hsame.symm.trans hx)]
      exact cut_of_isLE hle e
    · have hy : y.release.isSome ≠ e.release.isSome := hsame ▸ hx
      rwa [matchCompare_of_isSome_ne hx, matchCompare_of_isSome_ne hy]

end Edition

end PackagePool
