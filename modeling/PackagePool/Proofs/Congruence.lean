import PackagePool.Capability.Basic
import PackagePool.Filter.Attribute
import PackagePool.Proofs.Pool.Deduplication

/-!
# Equal values are interchangeable

Equality of editions is coarser than equality of their parts: `1.01` and `1_1` are equal.  The
equality of capabilities, resolvables and lock entries inherits this.  Each consumer of editions
reads the segments of the texts anew, so it has to be shown of each of them that it does not tell
equal values apart: of the comparisons, of the matching of capabilities, of the lock list, of the
filters and of the search for duplicates.  `equality_is_congruence` gathers the results.

A filter may look at an edition through any function.  Interchangeability needs that it looks
through an operator (`IdentityTest.ByOperator`); the tests of the other attributes are free, since
those attributes of equal resolvables are the same.
-/

namespace PackagePool

/-! ## Matching -/

namespace Capability

theorem Range.beq_iff {a b : Range} :
    (a == b) = true ↔ a.op = b.op ∧ (a.edition == b.edition) = true := by
  simp only [BEq.beq, Bool.and_eq_true, decide_eq_true_eq]

theorem matchRange_congr {r r' p p' : Option Range} (hr : (r == r') = true)
    (hp : (p == p') = true) : matchRange r p = matchRange r' p' := by
  rcases none_or_some_of_beq hr with ⟨rfl, rfl⟩ | ⟨required, required', rfl, rfl, hrequired⟩
  · rcases none_or_some_of_beq hp with ⟨rfl, rfl⟩ | ⟨provided, provided', rfl, rfl, -⟩
    · rfl
    · rfl
  · rcases none_or_some_of_beq hp with ⟨rfl, rfl⟩ | ⟨provided, provided', rfl, rfl, hprovided⟩
    · rfl
    · obtain ⟨hop, hedition⟩ := Range.beq_iff.1 hrequired
      obtain ⟨-, hedition'⟩ := Range.beq_iff.1 hprovided
      simp only [matchRange, hop, Edition.matchCompare_congr hedition' hedition]

/-- Equal capabilities require alike and provide alike. -/
theorem satisfiedBy_congr {r r' p p' : Capability} (hr : (r == r') = true)
    (hp : (p == p') = true) : r.satisfiedBy p = r'.satisfiedBy p' := by
  obtain ⟨hname, hrange⟩ := Bool.and_eq_true_iff.1 hr
  obtain ⟨hname', hrange'⟩ := Bool.and_eq_true_iff.1 hp
  simp only [satisfiedBy, eq_of_beq hname, eq_of_beq hname', matchRange_congr hrange hrange']

end Capability

/-! ## Filters -/

namespace Filter

variable {τ α ι : Type}

/-- Values that no leaf tells apart are the same to every combination, the notes included. -/
theorem Expr.toFilter_congr {leaf : ι → Filter τ α} {a a' : α} (hleaf : ∀ i, leaf i a = leaf i a')
    (f : Expr ι) : f.toFilter leaf a = f.toFilter leaf a' := by
  induction f with
  | everything => rfl
  | nothing => rfl
  | leaf i => exact hleaf i
  | chain f g ihf ihg => simp only [toFilter, Filter.chain, ihf, ihg]
  | either f g ihf ihg => simp only [toFilter, Filter.either, ihf, ihg]
  | negate f ih => simp only [toFilter, Filter.negate, ih]

end Filter

namespace IdentityTest

/-- If it is a test of the edition, it compares by an operator. -/
def ByOperator : IdentityTest → Prop
  | edition policy _ => ∃ op : RelOp, policy = op.relates
  | _ => True

/-- The filter of a test takes no notes. -/
def filter {τ : Type} (test : IdentityTest) : Filter τ Resolvable :=
  .ofPredicate fun r => test.holds r

theorem holds_congr {x x' : Resolvable} (heq : (x == x') = true) {test : IdentityTest}
    (htest : test.ByOperator) : test.holds x = test.holds x' := by
  obtain ⟨hkind, hname, hedition, harch⟩ := Resolvable.beq_iff.1 heq
  cases test with
  | kind k => simp only [holds, hkind]
  | name n => simp only [holds, hname]
  | edition policy e =>
    obtain ⟨op, rfl⟩ := htest
    exact congrArg op.holds (Edition.compare_congr hedition BEq.rfl)
  | arch policy a => simp only [holds, harch]

theorem filter_congr {τ : Type} {x x' : Resolvable} (heq : (x == x') = true) {test : IdentityTest}
    (htest : test.ByOperator) : (test.filter x : Verdict τ) = test.filter x' :=
  congrArg (Verdict.mk · []) (holds_congr heq htest)

end IdentityTest

/-! ## Insertion -/

namespace Pool

variable {p : Pool} {u u' : PackageUnit} {installed : Bool}

/-- The insertion of a unit makes one more item, and no item of the pool had its handle. -/
structure TakesIn (p : Pool) (u : PackageUnit) (installed : Bool) (item : Item) : Prop where
  answer : (p.insert u installed).2 = item.handle
  items : (p.insert u installed).1.items.Perm (item :: p.items)
  fresh : ∀ other ∈ p.items, other.handle ≠ item.handle

/-- The insertions of two units are answered by the same item of the pool, or each by a new one;
then the new items differ in nothing but the unit. -/
inductive InsertsAlike (p : Pool) (u u' : PackageUnit) (installed : Bool) : Prop
  | known (item : Item) (hitem : item ∈ p.items) (hknown : p.insert u installed = (p, item.handle))
      (hknown' : p.insert u' installed = (p, item.handle))
  | new (h : Handle) (status : Status) (htaken : p.TakesIn u installed ⟨h, u, status⟩)
      (htaken' : p.TakesIn u' installed ⟨h, u', status⟩)

theorem findDuplicate?_congr (hresolvable : (u.resolvable == u'.resolvable) = true)
    (hsource : u.source = u'.source) :
    p.findDuplicate? u installed = p.findDuplicate? u' installed := by
  have hname : u.name = u'.name := (Resolvable.beq_iff.1 hresolvable).2.1
  have hduplicate (slot : Slot) : slot.isDuplicate u installed = slot.isDuplicate u' installed := by
    have hsame : (slot.unit.resolvable == u.resolvable) = (slot.unit.resolvable == u'.resolvable) :=
      BEq.congr_right hresolvable
    simp only [Slot.isDuplicate, hsame, hsource]
  simp only [findDuplicate?, hname, hduplicate]

theorem HasRoster.takesIn {roster : List Item} (hroster : HasRoster p roster)
    (hnone : p.findDuplicate? u installed = none) :
    p.TakesIn u installed (p.arrival u installed) := by
  constructor
  case answer =>
    rw [insert_of_not_findDuplicate? hnone]
    rfl
  case items =>
    rw [insert_of_not_findDuplicate? hnone]
    exact hroster.perm_items_place u installed
  case fresh =>
    intro other hother hsame
    exact hroster.index_ne_vacancy (hroster.perm_items.mem_iff.2 hother)
      (congrArg Handle.index hsame)

theorem HasRoster.insertsAlike {roster : List Item} (hroster : HasRoster p roster)
    (hresolvable : (u.resolvable == u'.resolvable) = true) (hsource : u.source = u'.source) :
    p.InsertsAlike u u' installed := by
  have hsearch : p.findDuplicate? u installed = p.findDuplicate? u' installed :=
    findDuplicate?_congr hresolvable hsource
  cases hfound : p.findDuplicate? u installed with
  | some h =>
    obtain ⟨item, hitem, rfl, -⟩ := hroster.exists_of_findDuplicate? hfound
    exact .known item (hroster.perm_items.mem_iff.1 hitem) (insert_of_findDuplicate? hfound)
      (insert_of_findDuplicate? (hsearch.symm.trans hfound))
  | none =>
    have hstatus : (p.arrival u' installed).status = (p.arrival u installed).status :=
      congrArg (Status.initial installed) (p.config.isLocked_congr (BEq.symm hresolvable))
    have htaken' := hroster.takesIn (hsearch.symm.trans hfound)
    exact .new (p.arrival u installed).handle (p.arrival u installed).status
      (hroster.takesIn hfound) (hstatus ▸ htaken')

end Pool

/-- **No decision depends on how equal values are written.**  Equal editions compare alike in both
comparisons, equal capabilities match alike, and equal resolvables are locked alike, are in the same
place of the order and pass the same combinations of tests.  In a pool that any run has led to,
units of equal resolvables and one origin are taken for the same item, or each for a new one. -/
theorem equality_is_congruence :
    (∀ a a' b b' : Edition, (a == a') = true → (b == b') = true →
      a.compare b = a'.compare b' ∧ a.matchCompare b = a'.matchCompare b') ∧
    (∀ r r' p p' : Capability, (r == r') = true → (p == p') = true →
      r.satisfiedBy p = r'.satisfiedBy p') ∧
    (∀ x x' : Resolvable, (x == x') = true →
      (∀ c : PoolConfig, c.isLocked x = c.isLocked x') ∧
      (∀ y : Resolvable, x.compare y = x'.compare y) ∧
      ∀ (τ : Type) (f : Filter.Expr {test : IdentityTest // test.ByOperator}),
        let combined : Filter τ Resolvable := f.toFilter fun test => test.1.filter
        combined x = combined x') ∧
    ∀ (config : PoolConfig) (ops : List Pool.Op) (u u' : PackageUnit) (installed : Bool),
      (u.resolvable == u'.resolvable) = true → u.source = u'.source →
      ((Pool.empty config).after ops).InsertsAlike u u' installed := by
  refine ⟨?editions, ?capabilities, ?resolvables, ?insertions⟩
  case editions =>
    intro a a' b b' ha hb
    exact ⟨Edition.compare_congr ha hb, Edition.matchCompare_congr ha hb⟩
  case capabilities =>
    intro r r' p p' hr hp
    exact Capability.satisfiedBy_congr hr hp
  case resolvables =>
    intro x x' heq
    refine ⟨?_, ?_, ?_⟩
    · intro c
      exact c.isLocked_congr heq
    · intro y
      exact Resolvable.compare_congr heq BEq.rfl
    · intro τ f
      exact Filter.Expr.toFilter_congr (fun test => IdentityTest.filter_congr heq test.2) f
  case insertions =>
    intro config ops u u' installed hresolvable hsource
    obtain ⟨roster, hroster, -, -⟩ := Pool.exists_roster_after config ops
    exact hroster.insertsAlike hresolvable hsource

/-- A leading zero and another separator: the texts differ, the editions and the resolvables are
equal, and the item of the one is the answer to the insertion of the other. -/
theorem equality_is_congruence_spellings :
    let old : Edition := ⟨0, "1.01", none, by decide⟩
    let new : Edition := ⟨0, "1_1", none, by decide⟩
    let sh (e : Edition) : PackageUnit :=
      .bare ⟨.package, "sh", e, .noarch, Text.isWord_iff.2 (by decide)⟩ .system
    (sh old).render = "[package]sh-1.01.noarch" ∧ (sh new).render = "[package]sh-1_1.noarch" ∧
      old.matchCompare new = new.matchCompare new ∧
      let stocked := (Pool.empty .default).after [.insert (sh old) false]
      stocked.InsertsAlike (sh old) (sh new) false := by
  intro old new sh
  have heq : (old == new) = true := by decide
  have hsame : ((sh old).resolvable == (sh new).resolvable) = true := by decide
  refine ⟨by decide, by decide, ?_, ?_⟩
  · exact (equality_is_congruence.1 old new new new heq BEq.rfl).2
  · exact equality_is_congruence.2.2.2 _ _ _ _ _ hsame rfl

end PackagePool
