import PackagePool.Capability.Basic

/-!
# Combined outcomes

A maybe stands for an answer that is still open, and outcomes are combined without waiting for it.
What such a combination is worth is told by the answers that an outcome *admits*: maybe admits
both, and a settled outcome the one that it is.  A combination admits exactly what can be combined
from the answers that its parts admit (`Outcome.admits_and`, `Outcome.admits_or`,
`Outcome.admits_not`).

The main result, `definite_iff_resolutions_agree`, says this of expressions of any size.  A
definite value stands, whatever the open leaves turn out to be, and an expression without open
leaves has its two-valued value.  Nothing is lost either, since open leaves are settled
independently of each other: if every way to settle them leads to one answer, the expression has
that value already.
-/

namespace PackagePool

namespace Outcome

/-! ## Settled outcomes -/

theorem isYes_ofBool (b : Bool) : (ofBool b).isYes = b := by
  cases b <;> rfl

theorem ofBool_injective {a b : Bool} (h : ofBool a = ofBool b) : a = b := by
  rw [← isYes_ofBool a, h, isYes_ofBool]

theorem ofBool_ne_maybe (b : Bool) : ofBool b ≠ maybe := by
  cases b <;> simp [ofBool]

theorem eq_ofBool_of_ne_maybe {o : Outcome} (h : o ≠ maybe) : o = ofBool o.isYes := by
  cases o with
  | yes => rfl
  | maybe => exact absurd rfl h
  | no => rfl

theorem ofBool_and (a b : Bool) : (ofBool a).and (ofBool b) = ofBool (a && b) := by
  cases a <;> cases b <;> rfl

theorem ofBool_or (a b : Bool) : (ofBool a).or (ofBool b) = ofBool (a || b) := by
  cases a <;> cases b <;> rfl

theorem ofBool_not (a : Bool) : (ofBool a).not = ofBool !a := by
  cases a <;> rfl

/-! ## Admitted answers -/

/-- Whether an answer is still possible. -/
def Admits (o : Outcome) (b : Bool) : Prop :=
  o = maybe ∨ o = ofBool b

instance (o : Outcome) (b : Bool) : Decidable (o.Admits b) :=
  inferInstanceAs (Decidable (_ ∨ _))

theorem admits_maybe (b : Bool) : maybe.Admits b :=
  .inl rfl

theorem admits_ofBool {a b : Bool} : (ofBool a).Admits b ↔ a = b := by
  constructor
  · intro h
    exact ofBool_injective (h.resolve_left (ofBool_ne_maybe a))
  · rintro rfl
    exact .inr rfl

/-- A definite outcome admits no other answer. -/
theorem eq_ofBool_iff {o : Outcome} {b : Bool} : o = ofBool b ↔ ∀ c, o.Admits c → c = b := by
  constructor
  · rintro rfl c hc
    exact (admits_ofBool.1 hc).symm
  · intro honly
    have hsettled : o ≠ maybe := by
      rintro rfl
      have hother : (!b) = b := honly _ (admits_maybe _)
      simp at hother
    have hanswer := eq_ofBool_of_ne_maybe hsettled
    rw [hanswer, honly _ (.inr hanswer)]

theorem admits_and {a b : Outcome} {c : Bool} :
    (a.and b).Admits c ↔ ∃ x y, a.Admits x ∧ b.Admits y ∧ (x && y) = c := by
  cases a <;> cases b <;> cases c <;> decide

theorem admits_or {a b : Outcome} {c : Bool} :
    (a.or b).Admits c ↔ ∃ x y, a.Admits x ∧ b.Admits y ∧ (x || y) = c := by
  cases a <;> cases b <;> cases c <;> decide

theorem admits_not {a : Outcome} {c : Bool} : a.not.Admits c ↔ ∃ x, a.Admits x ∧ (!x) = c := by
  cases a <;> cases c <;> decide

namespace Formula

/-! ## Settling the leaves of an expression -/

/-- No leaf is maybe. -/
def IsSettled : Formula → Prop
  | leaf o => o ≠ maybe
  | and f g => f.IsSettled ∧ g.IsSettled
  | or f g => f.IsSettled ∧ g.IsSettled
  | not f => f.IsSettled

/-- The two-valued value of an expression, where a leaf is true if it is yes. -/
def truth : Formula → Bool
  | leaf o => o.isYes
  | and f g => f.truth && g.truth
  | or f g => f.truth || g.truth
  | not f => !f.truth

/-- `f.Resolution g` says that `g` is `f` with some of its maybe leaves replaced, each by yes or by
no. -/
inductive Resolution : Formula → Formula → Prop
  | leaf (o : Outcome) : Resolution (leaf o) (leaf o)
  | settle {o : Outcome} (ho : o ≠ maybe) : Resolution (leaf maybe) (leaf o)
  | and {f f' g g' : Formula} (hf : Resolution f f') (hg : Resolution g g') :
      Resolution (and f g) (and f' g')
  | or {f f' g g' : Formula} (hf : Resolution f f') (hg : Resolution g g') :
      Resolution (or f g) (or f' g')
  | not {f f' : Formula} (hf : Resolution f f') : Resolution (not f) (not f')

/-- Leaves can be settled one after the other. -/
theorem Resolution.trans {f g h : Formula} (hfg : f.Resolution g) (hgh : g.Resolution h) :
    f.Resolution h := by
  induction hfg generalizing h with
  | leaf o => exact hgh
  | settle ho =>
    cases hgh with
    | leaf _ => exact .settle ho
    | settle _ => exact absurd rfl ho
  | and _ _ ihf ihg =>
    cases hgh with
    | and hf hg => exact .and (ihf hf) (ihg hg)
  | or _ _ ihf ihg =>
    cases hgh with
    | or hf hg => exact .or (ihf hf) (ihg hg)
  | not _ ih =>
    cases hgh with
    | not hf => exact .not (ih hf)

theorem value_of_isSettled {f : Formula} (hf : f.IsSettled) : f.value = ofBool f.truth := by
  induction f with
  | leaf o => exact eq_ofBool_of_ne_maybe hf
  | and f g ihf ihg => rw [value, ihf hf.1, ihg hf.2, ofBool_and, truth]
  | or f g ihf ihg => rw [value, ihf hf.1, ihg hf.2, ofBool_or, truth]
  | not f ih => rw [value, ih hf, ofBool_not, truth]

/-! ## Answers that are reached by settling -/

/-- The answer is the two-valued value of an expression that results from settling all leaves. -/
def Reaches (f : Formula) (b : Bool) : Prop :=
  ∃ g, f.Resolution g ∧ g.IsSettled ∧ g.truth = b

theorem reaches_leaf {o : Outcome} {b : Bool} : (leaf o).Reaches b ↔ o.Admits b := by
  constructor
  · rintro ⟨g, hg, hsettled, rfl⟩
    cases hg with
    | leaf _ => exact .inr (value_of_isSettled hsettled)
    | settle _ => exact admits_maybe _
  · have hsettled := ofBool_ne_maybe b
    rintro (rfl | rfl)
    · exact ⟨leaf (ofBool b), .settle hsettled, hsettled, isYes_ofBool b⟩
    · exact ⟨leaf (ofBool b), .leaf _, hsettled, isYes_ofBool b⟩

theorem reaches_and {f g : Formula} {b : Bool} :
    (and f g).Reaches b ↔ ∃ x y, f.Reaches x ∧ g.Reaches y ∧ (x && y) = b := by
  constructor
  · rintro ⟨_, hfg, hsettled, rfl⟩
    cases hfg with
    | and hf hg => exact ⟨_, _, ⟨_, hf, hsettled.1, rfl⟩, ⟨_, hg, hsettled.2, rfl⟩, rfl⟩
  · rintro ⟨_, _, ⟨f', hf, hf', rfl⟩, ⟨g', hg, hg', rfl⟩, rfl⟩
    exact ⟨and f' g', .and hf hg, ⟨hf', hg'⟩, rfl⟩

theorem reaches_or {f g : Formula} {b : Bool} :
    (or f g).Reaches b ↔ ∃ x y, f.Reaches x ∧ g.Reaches y ∧ (x || y) = b := by
  constructor
  · rintro ⟨_, hfg, hsettled, rfl⟩
    cases hfg with
    | or hf hg => exact ⟨_, _, ⟨_, hf, hsettled.1, rfl⟩, ⟨_, hg, hsettled.2, rfl⟩, rfl⟩
  · rintro ⟨_, _, ⟨f', hf, hf', rfl⟩, ⟨g', hg, hg', rfl⟩, rfl⟩
    exact ⟨or f' g', .or hf hg, ⟨hf', hg'⟩, rfl⟩

theorem reaches_not {f : Formula} {b : Bool} :
    (not f).Reaches b ↔ ∃ x, f.Reaches x ∧ (!x) = b := by
  constructor
  · rintro ⟨_, hnot, hsettled, rfl⟩
    cases hnot with
    | not hf => exact ⟨_, ⟨_, hf, hsettled, rfl⟩, rfl⟩
  · rintro ⟨_, ⟨f', hf, hf', rfl⟩, rfl⟩
    exact ⟨not f', .not hf, hf', rfl⟩

/-- The value of an expression admits exactly the answers that settling its leaves can lead to. -/
theorem admits_value_iff {f : Formula} {b : Bool} : f.value.Admits b ↔ f.Reaches b := by
  induction f generalizing b with
  | leaf o => exact reaches_leaf.symm
  | and f g ihf ihg => simp only [value, admits_and, ihf, ihg, reaches_and]
  | or f g ihf ihg => simp only [value, admits_or, ihf, ihg, reaches_or]
  | not f ih => simp only [value, admits_not, ih, reaches_not]

/-- Settling leaves only rules answers out. -/
theorem Resolution.admits {f g : Formula} (h : f.Resolution g) {b : Bool}
    (hb : g.value.Admits b) : f.value.Admits b := by
  rw [admits_value_iff] at hb ⊢
  obtain ⟨k, hk, hsettled, htruth⟩ := hb
  exact ⟨k, h.trans hk, hsettled, htruth⟩

/-- **Combined outcomes can be relied on.**  A definite value is kept, whichever leaves are settled
and however.  Without open leaves, the value is the two-valued one.  And a value is definite
exactly if all ways to settle the open leaves lead to the same answer, which is that value. -/
theorem definite_iff_resolutions_agree (f : Formula) :
    (∀ g, f.Resolution g → f.value ≠ maybe → g.value = f.value) ∧
      (f.IsSettled → f.value = ofBool f.truth) ∧
      ∀ b, f.value = ofBool b ↔ ∀ g, f.Resolution g → g.IsSettled → g.truth = b := by
  refine ⟨?stands, value_of_isSettled, ?agree⟩
  case stands =>
    intro g hg hdefinite
    have hf := eq_ofBool_of_ne_maybe hdefinite
    rw [hf, eq_ofBool_iff]
    intro c hc
    exact eq_ofBool_iff.1 hf c (hg.admits hc)
  case agree =>
    intro b
    rw [eq_ofBool_iff]
    constructor
    · intro honly g hg hsettled
      exact honly _ (admits_value_iff.2 ⟨g, hg, hsettled, rfl⟩)
    · intro hagree c hc
      obtain ⟨g, hg, hsettled, rfl⟩ := admits_value_iff.1 hc
      exact hagree g hg hsettled

/-- Whether a bare `sh` satisfies `sh >= 5.1` is open.  That nothing satisfies it while `sh = 5.2`
does not is false all the same. -/
theorem definite_iff_resolutions_agree_shell :
    let sh (range : Option Capability.Range) : Capability :=
      ⟨"sh", range, Text.isWord_iff.2 (by decide)⟩
    let required := sh (some ⟨.ge, ⟨0, "5.1", none, by decide⟩, rfl⟩)
    let newer := sh (some ⟨.eq, ⟨0, "5.2", none, by decide⟩, rfl⟩)
    let missed := not (leaf (required.satisfiedBy newer))
    let f := and (leaf (required.satisfiedBy (sh none))) missed
    let g := and (leaf yes) missed
    required.satisfiedBy (sh none) = maybe ∧ f.Resolution g ∧ f.value ≠ maybe ∧ g.IsSettled ∧
      g.value = f.value ∧ g.value = ofBool g.truth ∧ f.value = ofBool false ∧
      ∀ h, f.Resolution h → h.IsSettled → h.truth = false := by
  intro sh required newer missed f g
  have hopen : required.satisfiedBy (sh none) = maybe := by decide
  have hmet : required.satisfiedBy newer = yes := by decide
  have hresolution : f.Resolution g := by
    show (and (leaf (required.satisfiedBy (sh none))) missed).Resolution g
    rw [hopen]
    exact .and (.settle (by decide)) (.not (.leaf _))
  have hdefinite : f.value = ofBool false := by
    show (required.satisfiedBy (sh none)).and (required.satisfiedBy newer).not = _
    rw [hopen, hmet]
    rfl
  have hmet' : required.satisfiedBy newer ≠ maybe := hmet ▸ ofBool_ne_maybe true
  have hsettled : g.IsSettled := ⟨ofBool_ne_maybe true, hmet'⟩
  have hne : f.value ≠ maybe := hdefinite ▸ ofBool_ne_maybe false
  refine ⟨hopen, hresolution, hne, hsettled, ?_, ?_, hdefinite, ?_⟩
  · exact (definite_iff_resolutions_agree f).1 g hresolution hne
  · exact (definite_iff_resolutions_agree g).2.1 hsettled
  · exact ((definite_iff_resolutions_agree f).2.2 false).1 hdefinite

end Formula

end Outcome

end PackagePool
