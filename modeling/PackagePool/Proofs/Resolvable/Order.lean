import Mathlib.Data.List.Forall2
import PackagePool.Config.Basic
import PackagePool.Proofs.Text.ByteOrder
import PackagePool.Proofs.Version.Order

/-!
# The order and the equality of resolvables

A resolvable is compared by its name, its edition, its architecture and its kind, the edition
against the order of editions.  The comparison is a total order up to `==`: resolvables compare as
equal exactly if they are equal, which is to say that their names, architectures and kinds are the
same and their editions are equal.  A hash reads the same values from two resolvables under the same
condition.  Which of two resolvables comes first is told by `ComesBefore`, key by key; the theorem
`order_respects_identity` gathers all of this.

Equal resolvables may still be written in different ways.  Nothing that looks at a resolvable
through its parts can tell them apart; `PoolConfig.isLocked_congr` says so for the lock list, and
`PoolConfig.isLocked_eq_of_beq` says the same of equal lock lists.
-/

namespace PackagePool

open Text

namespace Resolvable

theorem compare_eq_compareLex :
    Resolvable.compare =
      compareLex (compareLex (compareLex (compareOn name) fun a b => b.edition.compare a.edition)
        (compareOn arch)) (compareOn kind) :=
  rfl

instance : Std.TransCmp fun a b : Resolvable => b.edition.compare a.edition :=
  inferInstanceAs (Std.TransCmp fun a b => compareOn edition b a)

instance : Std.TransCmp Resolvable.compare := by
  rw [compare_eq_compareLex]
  infer_instance

/-- Resolvables compare as equal exactly if they are equal. -/
theorem beq_iff_compare {a b : Resolvable} : (a == b) = true ↔ a.compare b = .eq := by
  rw [compare_eq_compareLex, beq_iff]
  simp only [compareLex_eq_eq, compareOn, Std.LawfulEqCmp.compare_eq_iff_eq, and_assoc]
  rw [← Edition.beq_iff_compare, BEq.comm]
  tauto

instance : Std.LawfulBEqCmp Resolvable.compare :=
  ⟨beq_iff_compare.symm⟩

instance : EquivBEq Resolvable :=
  @Std.LawfulBEqCmp.equivBEq Resolvable _ Resolvable.compare _ _

theorem compare_total (a b : Resolvable) :
    ((a.compare b).isLE || (b.compare a).isLE) = true := by
  have hswap : b.compare a = (a.compare b).swap := Std.OrientedCmp.eq_swap
  rw [hswap]
  cases a.compare b <;> rfl

/-- A hash reads the same values from two resolvables exactly if they are equal. -/
theorem fingerprint_eq_iff {a b : Resolvable} :
    a.fingerprint = b.fingerprint ↔ (a == b) = true := by
  have hkind : a.kind.rank = b.kind.rank ↔ a.kind = b.kind :=
    ⟨Kind.rank_injective, congrArg Kind.rank⟩
  have harch : a.arch.rank = b.arch.rank ↔ a.arch = b.arch :=
    ⟨Arch.rank_injective, congrArg Arch.rank⟩
  rw [beq_iff, Edition.beq_iff_compare, Edition.compare_eq_eq_iff, ← Edition.fingerprint_eq_iff,
    ← hkind, ← harch]
  simp only [fingerprint, List.cons.injEq, Fingerprint.Atom.ordinal.injEq,
    Fingerprint.Atom.text.injEq, ← List.concat_eq_append, List.concat_inj]

theorem compare_congr {a a' b b' : Resolvable} (ha : (a == a') = true) (hb : (b == b') = true) :
    a.compare b = a'.compare b' :=
  (Std.TransCmp.congr_left (beq_iff_compare.1 ha)).trans
    (Std.TransCmp.congr_right (beq_iff_compare.1 hb))

/-- The first key that differs puts `a` before `b`: a name that is smaller bytewise, a newer
edition, an earlier architecture or an earlier kind. -/
def ComesBefore (a b : Resolvable) : Prop :=
  utf8 a.name.toList < utf8 b.name.toList ∨
    a.name = b.name ∧
      (a.edition.compare b.edition = .gt ∨
        a.edition.compare b.edition = .eq ∧
          (a.arch.rank < b.arch.rank ∨ a.arch = b.arch ∧ a.kind.rank < b.kind.rank))

theorem compare_eq_lt_iff {a b : Resolvable} : a.compare b = .lt ↔ a.ComesBefore b := by
  have hname : Ord.compare a.name b.name = .lt ↔ utf8 a.name.toList < utf8 b.name.toList := by
    rw [utf8_lt_iff, ← String.lt_iff]
    exact compareOfLessAndEq_eq_lt
  have hnewer : b.edition.compare a.edition = .lt ↔ a.edition.compare b.edition = .gt :=
    Std.OrientedCmp.gt_iff_lt.symm
  have hsame : b.edition.compare a.edition = .eq ↔ a.edition.compare b.edition = .eq :=
    Std.OrientedCmp.eq_comm
  have harch : Ord.compare a.arch b.arch = .lt ↔ a.arch.rank < b.arch.rank := Nat.compare_eq_lt
  have hkind : Ord.compare a.kind b.kind = .lt ↔ a.kind.rank < b.kind.rank := Nat.compare_eq_lt
  simp only [Resolvable.compare, ComesBefore, Ordering.then_eq_lt, Ordering.then_eq_eq,
    Std.LawfulEqCmp.compare_eq_iff_eq, hname, hnewer, hsame, harch, hkind, and_or_left, or_assoc,
    and_assoc]

/-- **The order of resolvables is total and coherent with their identity.**  Turning a comparison
around reverses it, "not after" is transitive, and resolvables compare as equal exactly if they are
equal, that is, if all four parts compare as equal; then a hash reads the same values from both.
One comes before another exactly if the first key that differs says so. -/
theorem order_respects_identity (a b c : Resolvable) :
    a.compare b = (b.compare a).swap ∧
      (a.compare b ≠ .gt → b.compare c ≠ .gt → a.compare c ≠ .gt) ∧
      (a.compare b = .eq ↔ (a == b) = true) ∧
      ((a == b) = true ↔
        a.kind = b.kind ∧ a.name = b.name ∧ a.edition.compare b.edition = .eq ∧ a.arch = b.arch) ∧
      ((a == b) = true → a.fingerprint = b.fingerprint) ∧
      (a.compare b = .lt ↔ a.ComesBefore b) := by
  refine ⟨Std.OrientedCmp.eq_swap, ?_, beq_iff_compare.symm, ?_, fingerprint_eq_iff.2,
    compare_eq_lt_iff⟩
  · intro hab hbc
    simp only [ne_eq, Ordering.ne_gt_iff_isLE] at hab hbc ⊢
    exact Std.TransCmp.isLE_trans hab hbc
  · rw [beq_iff, Edition.beq_iff_compare]

/-! ## Lists in order -/

/-- A hash reads these values from two resolvables that are in order. -/
def Precedes (f g : Fingerprint) : Prop :=
  ∃ a b : Resolvable, a.fingerprint = f ∧ b.fingerprint = g ∧ (a.compare b).isLE = true

theorem Precedes.antisymm {f g : Fingerprint} (hfg : Precedes f g) (hgf : Precedes g f) :
    f = g := by
  obtain ⟨a, b, rfl, rfl, hle⟩ := hfg
  obtain ⟨b', a', hb, ha, hge⟩ := hgf
  rw [compare_congr (fingerprint_eq_iff.1 hb) (fingerprint_eq_iff.1 ha)] at hge
  exact fingerprint_eq_iff.2 (beq_iff_compare.2 (Std.OrientedCmp.isLE_antisymm hle hge))

/-- Two lists in order that have the same resolvables up to `==`, each equally often, have equal
resolvables in equal places. -/
theorem forall₂_beq_of_pairwise {xs ys : List Resolvable}
    (hxs : xs.Pairwise fun a b => (a.compare b).isLE = true)
    (hys : ys.Pairwise fun a b => (a.compare b).isLE = true)
    (hperm : (xs.map fingerprint).Perm (ys.map fingerprint)) :
    List.Forall₂ (fun a b => (a == b) = true) xs ys := by
  have hmap : ∀ {zs : List Resolvable}, (zs.Pairwise fun a b => (a.compare b).isLE = true) →
      (zs.map fingerprint).Pairwise Precedes := fun hzs =>
    List.pairwise_map.2 (hzs.imp fun hle => ⟨_, _, rfl, rfl, hle⟩)
  have heq : xs.map fingerprint = ys.map fingerprint :=
    hperm.eq_of_pairwise (fun _ _ _ _ => Precedes.antisymm) (hmap hxs) (hmap hys)
  rw [← List.forall₂_eq_eq_eq, List.forall₂_map_left_iff, List.forall₂_map_right_iff] at heq
  exact heq.imp fun _ _ => fingerprint_eq_iff.1

end Resolvable

/-! ## Locks -/

theorem LockEntry.covers_congr {a b : Resolvable} (heq : (a == b) = true) (l : LockEntry) :
    l.covers a = l.covers b := by
  obtain ⟨hkind, hname, hedition, harch⟩ := Resolvable.beq_iff.1 heq
  have hsame : ∀ e : Edition, (e == a.edition) = (e == b.edition) := fun _ =>
    BEq.congr_right hedition
  simp only [covers, hkind, hname, harch, hsame]

/-- The lock list locks equal resolvables alike. -/
theorem PoolConfig.isLocked_congr {a b : Resolvable} (heq : (a == b) = true) (c : PoolConfig) :
    c.isLocked a = c.isLocked b := by
  unfold isLocked
  exact congrArg c.locks.any (funext (LockEntry.covers_congr heq))

theorem LockEntry.beq_iff {l l' : LockEntry} :
    (l == l') = true ↔
      l.kind = l'.kind ∧ l.name = l'.name ∧ (l.edition == l'.edition) = true ∧
        l.arch = l'.arch := by
  have hparts : (l == l') = (l.kind == l'.kind && l.name == l'.name && l.edition == l'.edition &&
      l.arch == l'.arch) := rfl
  rw [hparts]
  simp only [Bool.and_eq_true, beq_iff_eq, and_assoc]

/-- Equal entries cover the same resolvables. -/
theorem LockEntry.covers_eq_of_beq {l l' : LockEntry} (heq : (l == l') = true) :
    l.covers = l'.covers := by
  funext r
  obtain ⟨hkind, hname, hedition, harch⟩ := beq_iff.1 heq
  have hsame : l.edition.all (· == r.edition) = l'.edition.all (· == r.edition) := by
    rcases none_or_some_of_beq hedition with ⟨hl, hl'⟩ | ⟨x, y, hl, hl', hxy⟩
    · rw [hl, hl']
    · rw [hl, hl']
      exact BEq.congr_left hxy
  simp only [covers, hkind, hname, harch, hsame]

/-- Equal configurations lock the same resolvables. -/
theorem PoolConfig.isLocked_eq_of_beq {c c' : PoolConfig} (heq : (c == c') = true) :
    c.isLocked = c'.isLocked := by
  have hlocks : (c.locks == c'.locks) = true := (Bool.and_eq_true_iff.1 heq).2
  funext r
  unfold isLocked
  generalize c.locks = locks at hlocks
  generalize c'.locks = locks' at hlocks
  induction locks generalizing locks' with
  | nil =>
    cases locks' with
    | nil => rfl
    | cons l' locks' => cases hlocks
  | cons l locks ih =>
    cases locks' with
    | nil => cases hlocks
    | cons l' locks' =>
      obtain ⟨hfirst, hlater⟩ := Bool.and_eq_true_iff.1 hlocks
      rw [List.any_cons, List.any_cons, LockEntry.covers_eq_of_beq hfirst, ih locks' hlater]

end PackagePool
