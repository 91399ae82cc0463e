import Mathlib.Data.List.Basic
import PackagePool.Version.Edition

/-!
# The order of editions

The comparison of editions goes through several stages: epochs, then the segments of the versions,
then the segments of the releases, where a missing release comes first.  Each stage is a comparison
of lawful keys, so the whole is a total order on those keys.  The parts of an edition are finer than
its keys: `1.01` and `1_1` have the same segments.

The main result, `compare_coherent`, says that the three views of an edition identify the same
texts: `Edition.compare` is a total order up to `==`, editions are equal exactly if they compare as
equal, and they are equal exactly if a hash reads the same sequence of values from both.  Since an
edition carries the proof that it has no fault, the editions quantified over are those that
`Edition.ofParts` and `Edition.parse` answer with.
-/

namespace PackagePool

open Version

/-! ## Segments -/

namespace Version.Segment

/-- Letter runs stand below all digit runs; digit runs without leading zeros rank by length. -/
def rank : Segment → Nat
  | alpha _ => 0
  | numeric digits => digits.length + 1

/-- The characters of a run, which decide between segments of one rank. -/
def chars : Segment → List Char
  | alpha letters => letters
  | numeric digits => digits

theorem eq_of_rank_of_chars {x y : Segment} (hrank : x.rank = y.rank) (hchars : x.chars = y.chars) :
    x = y := by
  cases x with
  | alpha letters =>
    cases y with
    | alpha others => exact congrArg alpha hchars
    | numeric digits =>
      simp only [rank] at hrank
      omega
  | numeric digits =>
    cases y with
    | alpha letters =>
      simp only [rank] at hrank
      omega
    | numeric others => exact congrArg numeric hchars

theorem compare_eq_compareLex :
    Segment.compare = compareLex (compareOn rank) (compareOn chars) := by
  funext x y
  cases x with
  | alpha x =>
    cases y with
    | alpha y => simp [Segment.compare, compareLex, compareOn, rank, chars]
    | numeric y => simp [Segment.compare, compareLex, compareOn, rank, Nat.compare_eq_lt.2]
  | numeric x =>
    cases y with
    | alpha y => simp [Segment.compare, compareLex, compareOn, rank, Nat.compare_eq_gt.2]
    | numeric y =>
      have hlength : Ord.compare (x.length + 1) (y.length + 1) = Ord.compare x.length y.length := by
        simp only [Nat.compare_eq_ite_lt, Nat.add_lt_add_iff_right]
      simp only [Segment.compare, compareLex, compareOn, rank, chars, hlength]

instance : Std.TransCmp Segment.compare := by
  rw [compare_eq_compareLex]
  infer_instance

instance : Std.LawfulEqCmp Segment.compare where
  compare_self := Std.ReflCmp.compare_self
  eq_of_compare {x y} h := by
    rw [compare_eq_compareLex, compareLex_eq_eq] at h
    exact eq_of_rank_of_chars (Std.LawfulEqOrd.eq_of_compare h.1)
      (Std.LawfulEqOrd.eq_of_compare h.2)

instance : Std.TransOrd Segment :=
  inferInstanceAs (Std.TransCmp Segment.compare)

instance : Std.LawfulEqOrd Segment :=
  inferInstanceAs (Std.LawfulEqCmp Segment.compare)

end Version.Segment

/-! ## Editions -/

namespace Edition

/-- The segments of the release, if there is one. -/
def releaseSegments (e : Edition) : Option (List Segment) :=
  e.release.map segments

theorem compareRelease_eq (a b : Option String) :
    compareRelease a b = Ord.compare (a.map segments) (b.map segments) := by
  cases a <;> cases b <;> rfl

/-- The comparison of editions is the lexicographic one of epoch, version segments and release
segments. -/
theorem compare_eq_compareLex :
    Edition.compare =
      compareLex (compareLex (compareOn epoch) (compareOn fun e => segments e.version))
        (compareOn releaseSegments) := by
  funext a b
  simp only [Edition.compare, compareLex, compareOn, compareRelease_eq, releaseSegments]
  rfl

instance : Std.TransCmp Edition.compare := by
  rw [compare_eq_compareLex]
  infer_instance

instance : Std.TransOrd Edition :=
  inferInstanceAs (Std.TransCmp Edition.compare)

instance : Std.LawfulBEqCmp Edition.compare :=
  ⟨beq_iff_compare.symm⟩

instance : EquivBEq Edition :=
  @Std.LawfulBEqCmp.equivBEq Edition _ Edition.compare _ _

/-- Editions compare as equal exactly if none of their keys differ. -/
theorem compare_eq_eq_iff {a b : Edition} :
    a.compare b = .eq ↔
      a.epoch = b.epoch ∧ segments a.version = segments b.version ∧
        a.releaseSegments = b.releaseSegments := by
  rw [compare_eq_compareLex]
  simp only [compareLex_eq_eq, compareOn, Std.LawfulEqCmp.compare_eq_iff_eq, and_assoc]

/-- A hash reads the release of an edition as its segments behind a flag. -/
theorem releaseSegments_eq_iff {a b : Edition} :
    a.releaseSegments = b.releaseSegments ↔
      a.release.isSome = b.release.isSome ∧
        a.release.elim [] segments = b.release.elim [] segments := by
  unfold releaseSegments
  cases a.release <;> cases b.release <;> simp

/-- The fingerprint determines the keys of an edition and nothing else: the flag is no segment, so
it shows where the version ends. -/
theorem fingerprint_eq_iff {a b : Edition} :
    a.fingerprint = b.fingerprint ↔
      a.epoch = b.epoch ∧ segments a.version = segments b.version ∧
        a.releaseSegments = b.releaseSegments := by
  have hsegment : ∀ xs ys : List Segment,
      xs.map Fingerprint.Atom.segment = ys.map Fingerprint.Atom.segment ↔ xs = ys := fun xs ys =>
    List.map_inj_right fun _ _ h => Fingerprint.Atom.segment.inj h
  have hflag : ∀ (flag : Bool) (xs : List Segment),
      Fingerprint.Atom.flag flag ∉ xs.map Fingerprint.Atom.segment := by
    intro flag xs
    simp
  rw [fingerprint, fingerprint, List.cons_append, List.cons_append, List.cons.injEq,
    List.append_cons_inj_of_notMem (hflag _ _) (hflag _ _), hsegment, hsegment,
    releaseSegments_eq_iff, Fingerprint.Atom.word.injEq, Fingerprint.Atom.flag.injEq]

theorem compare_congr {a a' b b' : Edition} (ha : (a == a') = true) (hb : (b == b') = true) :
    a.compare b = a'.compare b' :=
  (Std.TransCmp.congr_left (beq_iff_compare.1 ha)).trans
    (Std.TransCmp.congr_right (beq_iff_compare.1 hb))

theorem matchRelease_eq (a b : Option String) :
    matchRelease a b =
      match a.map segments, b.map segments with
      | some xs, some ys => List.compareLex Segment.compare xs ys
      | _, _ => .eq := by
  cases a <;> cases b <;> rfl

/-- Ranges match equal editions alike: the comparison reads nothing but the keys. -/
theorem matchCompare_congr {a a' b b' : Edition} (ha : (a == a') = true)
    (hb : (b == b') = true) : a.matchCompare b = a'.matchCompare b' := by
  obtain ⟨hepoch, hversion, hrelease⟩ := compare_eq_eq_iff.1 (beq_iff_compare.1 ha)
  obtain ⟨hepoch', hversion', hrelease'⟩ := compare_eq_eq_iff.1 (beq_iff_compare.1 hb)
  unfold releaseSegments at hrelease hrelease'
  simp only [matchCompare, compareText, matchRelease_eq, hepoch, hversion, hrelease, hepoch',
    hversion', hrelease']

/-- **Order, equality and hash of editions are coherent.**  The comparison is a total order up to
`==`, which holds of exactly the editions that compare as equal, and these are exactly the editions
from which a hash reads the same values. -/
theorem compare_coherent (a b c : Edition) :
    a.compare a = .eq ∧
      a.compare b = (b.compare a).swap ∧
      (a.compare b ≠ .gt → b.compare c ≠ .gt → a.compare c ≠ .gt) ∧
      ((a == b) = true ↔ a.compare b = .eq) ∧
      ((a == b) = true ↔ a.fingerprint = b.fingerprint) := by
  refine ⟨Std.ReflCmp.compare_self, Std.OrientedCmp.eq_swap, ?_, beq_iff_compare, ?_⟩
  · intro hab hbc
    simp only [ne_eq, Ordering.ne_gt_iff_isLE] at hab hbc ⊢
    exact Std.TransCmp.isLE_trans hab hbc
  · rw [beq_iff_compare, compare_eq_eq_iff, fingerprint_eq_iff]

end Edition

/-- Equal optional values are both missing, or both there and equal. -/
theorem none_or_some_of_beq {α : Type} [BEq α] {a b : Option α} (heq : (a == b) = true) :
    a = none ∧ b = none ∨ ∃ x y, a = some x ∧ b = some y ∧ (x == y) = true := by
  cases a with
  | none =>
    cases b with
    | none => exact .inl ⟨rfl, rfl⟩
    | some y => cases heq
  | some x =>
    cases b with
    | none => cases heq
    | some y => exact .inr ⟨x, y, rfl, rfl, heq⟩

end PackagePool
