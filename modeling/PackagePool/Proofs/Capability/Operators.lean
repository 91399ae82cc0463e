import PackagePool.Proofs.Capability.Kleene
import PackagePool.Proofs.Version.MatchOrder

/-!
# Operators

A requirement is matched by itself, in three values.  Nevertheless requirements of one name and one
edition are related as their operators are: "at most" is "less" or "equal", and so on.  This is so
for every provided capability, since they all meet the same case: another name, no edition to
compare, or an edition that compares with theirs in one way.  Only the laws of negation need the
name to be right, for no negation turns one refusal into the other.

The converse of an operator asks the same question from the other side.  That the answers agree is
the antisymmetry of the comparison that matches (`Edition.matchCompare_swap`).  The main result,
`operator_algebra`, gathers these laws.
-/

namespace PackagePool

namespace RelOp

/-- The operator that holds of `b` and `a` if this one holds of `a` and `b`. -/
def converse : RelOp → RelOp
  | lt => gt
  | le => ge
  | gt => lt
  | ge => le
  | op => op

theorem holds_converse (op : RelOp) (order : Ordering) :
    op.converse.holds order = op.holds order.swap := by
  cases op <;> cases order <;> rfl

theorem qualifies_converse (op : RelOp) : op.converse.qualifies = op.qualifies := by
  cases op <;> rfl

theorem holds_le (order : Ordering) : le.holds order = (lt.holds order || eq.holds order) := by
  cases order <;> rfl

theorem holds_ge (order : Ordering) : ge.holds order = (gt.holds order || eq.holds order) := by
  cases order <;> rfl

theorem holds_eq (order : Ordering) : eq.holds order = (le.holds order && ge.holds order) := by
  cases order <;> rfl

theorem holds_lt (order : Ordering) : lt.holds order = !ge.holds order := by
  cases order <;> rfl

theorem holds_gt (order : Ordering) : gt.holds order = !le.holds order := by
  cases order <;> rfl

end RelOp

namespace Capability

open Text

/-- The capability of a word in a range. -/
def ranged {name : String} (hname : IsWord name) (op : RelOp) (hop : op.qualifies = true)
    (e : Edition) : Capability :=
  ⟨name, some ⟨op, e, hop⟩, hname⟩

variable {name : String} {hname : IsWord name} {e x : Edition} {p : Capability}
  {op left right : RelOp} {hop : op.qualifies = true} {hleft : left.qualifies = true}
  {hright : right.qualifies = true}

theorem versioned_eq_ranged : versioned name op e = .ok (ranged hname op hop e) :=
  versioned_eq_ok_iff.2 ⟨rfl, hop, rfl⟩

/-! ## What a requirement meets -/

theorem satisfiedBy_ranged_of_ne (hp : p.name ≠ name) :
    (ranged hname op hop e).satisfiedBy p = .no :=
  if_neg hp.symm

theorem satisfiedBy_ranged_of_none (hp : p.name = name) (hrange : p.range = none) :
    (ranged hname op hop e).satisfiedBy p = .maybe := by
  rw [satisfiedBy, ranged, if_pos hp.symm, hrange]
  rfl

theorem satisfiedBy_ranged_of_edition (hp : p.name = name) (hx : p.edition? = some x) :
    (ranged hname op hop e).satisfiedBy p = .ofBool (op.holds (x.matchCompare e)) := by
  obtain ⟨range, hrange, rfl⟩ := Option.map_eq_some_iff.1 hx
  rw [satisfiedBy, ranged, if_pos hp.symm, hrange]
  rfl

/-- Only the edition of a provided range counts. -/
theorem satisfiedBy_ranged_ranged :
    (ranged hname op hop e).satisfiedBy (ranged hname right hright x) =
      .ofBool (op.holds (x.matchCompare e)) := by
  have hx : (ranged hname right hright x).edition? = some x := rfl
  exact satisfiedBy_ranged_of_edition rfl hx

theorem range_eq_none_or_exists_edition (p : Capability) :
    p.range = none ∨ ∃ x, p.edition? = some x := by
  cases hrange : p.range with
  | none => exact .inl rfl
  | some range => exact .inr ⟨range.edition, by rw [edition?, hrange, Option.map_some]⟩

/-! ## Laws of operators as laws of requirements -/

/-- A connective that leaves a refusal and an open answer as they are turns a law of operators into
one of requirements. -/
theorem satisfiedBy_ranged_combine {f : Outcome → Outcome → Outcome} {g : Bool → Bool → Bool}
    (hno : f .no .no = .no) (hmaybe : f .maybe .maybe = .maybe)
    (hf : ∀ a b, f (.ofBool a) (.ofBool b) = .ofBool (g a b))
    (h : ∀ order, op.holds order = g (left.holds order) (right.holds order)) :
    (ranged hname op hop e).satisfiedBy p =
      f ((ranged hname left hleft e).satisfiedBy p)
        ((ranged hname right hright e).satisfiedBy p) := by
  by_cases hp : p.name = name
  · rcases range_eq_none_or_exists_edition p with hrange | ⟨x, hx⟩
    · simp only [satisfiedBy_ranged_of_none hp hrange, hmaybe]
    · simp only [satisfiedBy_ranged_of_edition hp hx, hf, h]
  · simp only [satisfiedBy_ranged_of_ne hp, hno]

theorem satisfiedBy_ranged_or
    (h : ∀ order, op.holds order = (left.holds order || right.holds order)) :
    (ranged hname op hop e).satisfiedBy p =
      ((ranged hname left hleft e).satisfiedBy p).or
        ((ranged hname right hright e).satisfiedBy p) :=
  satisfiedBy_ranged_combine rfl rfl Outcome.ofBool_or h

theorem satisfiedBy_ranged_and
    (h : ∀ order, op.holds order = (left.holds order && right.holds order)) :
    (ranged hname op hop e).satisfiedBy p =
      ((ranged hname left hleft e).satisfiedBy p).and
        ((ranged hname right hright e).satisfiedBy p) :=
  satisfiedBy_ranged_combine rfl rfl Outcome.ofBool_and h

/-- Another name is refused by both requirements, so here the name has to be right. -/
theorem satisfiedBy_ranged_not (hp : p.name = name)
    (h : ∀ order, op.holds order = !left.holds order) :
    (ranged hname op hop e).satisfiedBy p = ((ranged hname left hleft e).satisfiedBy p).not := by
  rcases range_eq_none_or_exists_edition p with hrange | ⟨x, hx⟩
  · simp only [satisfiedBy_ranged_of_none hp hrange]
    rfl
  · simp only [satisfiedBy_ranged_of_edition hp hx, Outcome.ofBool_not, h]

/-- Required and provided edition change places if the operator is turned around. -/
theorem satisfiedBy_ranged_converse (hconverse : op.converse.qualifies = true) :
    (ranged hname op hop e).satisfiedBy (ranged hname left hleft x) =
      (ranged hname op.converse hconverse x).satisfiedBy (ranged hname right hright e) := by
  rw [satisfiedBy_ranged_ranged, satisfiedBy_ranged_ranged, RelOp.holds_converse,
    Edition.matchCompare_swap x e]

/-- **The operators of requirements obey the laws of an order**, in three values and for every
provided capability; the two complements do so if the capability has the required name.  A
requirement for a single provided edition has the same outcome as the converse one with the
editions exchanged.  Every word can be required in this way. -/
theorem operator_algebra (hname : IsWord name) (e : Edition) :
    (∀ op hop, versioned name op e = .ok (ranged hname op hop e)) ∧
      (∀ p : Capability,
        let asked (op : RelOp) (hop : op.qualifies = true) := (ranged hname op hop e).satisfiedBy p
        asked .le rfl = (asked .lt rfl).or (asked .eq rfl) ∧
          asked .ge rfl = (asked .gt rfl).or (asked .eq rfl) ∧
          asked .eq rfl = (asked .le rfl).and (asked .ge rfl) ∧
          (p.name = name →
            asked .lt rfl = (asked .ge rfl).not ∧ asked .gt rfl = (asked .le rfl).not)) ∧
      ∀ x op hop, (ranged hname op hop e).satisfiedBy (ranged hname .eq rfl x) =
        (ranged hname op.converse (op.qualifies_converse.trans hop) x).satisfiedBy
          (ranged hname .eq rfl e) := by
  refine ⟨fun op hop => versioned_eq_ranged, ?laws, fun x op hop => satisfiedBy_ranged_converse _⟩
  case laws =>
    intro p asked
    refine ⟨satisfiedBy_ranged_or RelOp.holds_le, satisfiedBy_ranged_or RelOp.holds_ge,
      satisfiedBy_ranged_and RelOp.holds_eq, fun hp => ?_⟩
    exact ⟨satisfiedBy_ranged_not hp RelOp.holds_lt, satisfiedBy_ranged_not hp RelOp.holds_gt⟩

/-- A provided release is compared with a required one, and the two may change places. -/
theorem operator_algebra_shell :
    let hname : IsWord "sh" := isWord_iff.2 (by decide)
    let old : Edition := ⟨0, "5.1", some "2", by decide⟩
    let new : Edition := ⟨0, "5.1", some "3", by decide⟩
    let provided := ranged hname .eq rfl new
    provided.name = "sh" ∧
      (ranged hname .gt rfl old).satisfiedBy provided =
        ((ranged hname .le rfl old).satisfiedBy provided).not ∧
      (ranged hname .gt rfl old).satisfiedBy provided =
        (ranged hname .lt rfl new).satisfiedBy (ranged hname .eq rfl old) := by
  intro hname old new provided
  obtain ⟨-, hlaws, hconverse⟩ := operator_algebra hname old
  obtain ⟨-, -, -, hcomplement⟩ := hlaws provided
  exact ⟨rfl, (hcomplement rfl).2, hconverse new .gt rfl⟩

end Capability

end PackagePool
