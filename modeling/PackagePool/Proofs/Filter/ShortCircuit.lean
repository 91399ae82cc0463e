import PackagePool.Filter.Basic

/-!
# Short-circuit evaluation

A combination of filters stands for a boolean formula.  It is evaluated from left to right and only
as far as its value is open: the right side of a conjunction is asked if the left side is true, the
right side of a disjunction if the left side is false.  Which leaves are asked can thus be told by
looking at each leaf alone.  It stands behind guards, the left sides that could have settled the
value before it is reached, and it is asked exactly if none of them has done so (`Expr.asked`).

The main result, `short_circuit_evaluation`, says that the verdict of a combination is the value of
its formula, and that its notes are those of the asked leaves in their order.  Brackets in a row of
conjunctions or of disjunctions change neither, and De Morgan's law holds of the notes too.
-/

namespace PackagePool

namespace Filter

variable {τ α ι β : Type}

namespace Expr

/-! ## The formula -/

/-- The value of the formula that a combination stands for, where `holds` gives the values of the
leaves. -/
def value (holds : ι → Bool) : Expr ι → Bool
  | everything => true
  | nothing => false
  | leaf i => holds i
  | chain f g => f.value holds && g.value holds
  | either f g => f.value holds || g.value holds
  | negate f => !f.value holds

/-! ## The leaves that are asked -/

/-- A leaf in its place.  It is reached only if each guard has the value that goes with it. -/
structure Place (ι : Type) where
  guards : List (Expr ι × Bool)
  leaf : ι

/-- The place behind one more guard. -/
def Place.behind (f : Expr ι) (b : Bool) (place : Place ι) : Place ι :=
  { place with guards := (f, b) :: place.guards }

/-- Whether every guard lets the evaluation pass. -/
def Place.isReached (holds : ι → Bool) (place : Place ι) : Bool :=
  place.guards.all fun guard => guard.1.value holds == guard.2

/-- The leaves from left to right.  A conjunction goes on behind a left side that is true, and a
disjunction behind one that is false. -/
def places : Expr ι → List (Place ι)
  | everything => []
  | nothing => []
  | leaf i => [⟨[], i⟩]
  | chain f g => f.places ++ g.places.map (Place.behind f true)
  | either f g => f.places ++ g.places.map (Place.behind f false)
  | negate f => f.places

/-- The leaves that are asked, in order. -/
def asked (holds : ι → Bool) (f : Expr ι) : List ι :=
  (f.places.filter (Place.isReached holds)).map Place.leaf

section

variable (holds : ι → Bool)

/-- Behind a guard all leaves are asked that would be asked without it, or none. -/
theorem map_leaf_filter_behind (f : Expr ι) (b : Bool) (g : Expr ι) :
    ((g.places.map (Place.behind f b)).filter (Place.isReached holds)).map Place.leaf =
      if f.value holds = b then g.asked holds else [] := by
  have hreached : ∀ place : Place ι, (place.behind f b).isReached holds =
      (f.value holds == b && place.isReached holds) := fun _ => rfl
  rw [List.filter_map, List.map_map]
  simp only [Function.comp_def, hreached]
  split
  · rename_i hopen
    simp only [hopen, BEq.rfl, Bool.true_and]
    rfl
  · rename_i hsettled
    simp [hsettled]

theorem asked_leaf (i : ι) : (leaf i).asked holds = [i] := rfl

theorem asked_chain (f g : Expr ι) :
    (chain f g).asked holds = f.asked holds ++ if f.value holds then g.asked holds else [] := by
  rw [asked, places, List.filter_append, List.map_append, map_leaf_filter_behind]
  rfl

theorem asked_either (f g : Expr ι) :
    (either f g).asked holds = f.asked holds ++ if f.value holds then [] else g.asked holds := by
  rw [asked, places, List.filter_append, List.map_append, map_leaf_filter_behind]
  cases f.value holds
  · rfl
  · rfl

end

variable (leaf : ι → Filter τ α) (a : α)

theorem accepted_toFilter (f : Expr ι) :
    (f.toFilter leaf a).accepted = f.value fun i => (leaf i a).accepted := by
  induction f with
  | everything => rfl
  | nothing => rfl
  | leaf i => rfl
  | chain f g ihf ihg => rw [toFilter, accepted_chain, ihf, ihg, value]
  | either f g ihf ihg => rw [toFilter, accepted_either, ihf, ihg, value]
  | negate f ih => rw [toFilter, accepted_negate, ih, value]

theorem notes_toFilter (f : Expr ι) :
    (f.toFilter leaf a).notes =
      (f.asked fun i => (leaf i a).accepted).flatMap fun i => (leaf i a).notes := by
  induction f with
  | everything => rfl
  | nothing => rfl
  | leaf i => rw [toFilter, asked_leaf, List.flatMap_singleton]
  | chain f g ihf ihg =>
    rw [toFilter, notes_chain, accepted_toFilter, asked_chain, List.flatMap_append, ihf, ihg]
    split
    · rfl
    · rfl
  | either f g ihf ihg =>
    rw [toFilter, notes_either, accepted_toFilter, asked_either, List.flatMap_append, ihf, ihg]
    split
    · rfl
    · rfl
  | negate f ih => exact ih

/-- The first leaf settles the disjunction on the left of the conjunction, so the second is passed
over and the third is asked. -/
example : asked (· == 0) (.chain (.either (.leaf 0) (.leaf 1)) (.negate (.leaf 2))) = [0, 2] := by
  decide

end Expr

/-! ## Brackets -/

/-- A row of operands with brackets around two neighbours at a time. -/
inductive Bracketing (β : Type)
  | single (operand : β)
  | pair (left right : Bracketing β)

namespace Bracketing

/-- The operands without the brackets. -/
def row : Bracketing β → List β
  | single operand => [operand]
  | pair left right => left.row ++ right.row

/-- The operands combined as the brackets say. -/
def combine (op : β → β → β) : Bracketing β → β
  | single operand => operand
  | pair left right => op (left.combine op) (right.combine op)

end Bracketing

/-- The operands of a row up to and including the first that settles its value. -/
def upToFirst (settles : β → Bool) (row : List β) : List β :=
  row.take (row.findIdx settles + 1)

theorem upToFirst_cons (settles : β → Bool) (b : β) (row : List β) :
    upToFirst settles (b :: row) = b :: if settles b then [] else upToFirst settles row := by
  rw [upToFirst, List.findIdx_cons]
  cases settles b
  · rfl
  · rfl

theorem upToFirst_append (settles : β → Bool) (row later : List β) :
    upToFirst settles (row ++ later) =
      upToFirst settles row ++ if row.any settles then [] else upToFirst settles later := by
  induction row with
  | nil => rfl
  | cons b row ih =>
    rw [List.cons_append, upToFirst_cons, upToFirst_cons, ih, List.any_cons]
    cases settles b
    · simp
    · simp

namespace Expr

variable (leaf : ι → Filter τ α) (a : α)

/-- However a row of conjunctions is bracketed, it is asked up to its first rejecting member. -/
theorem toFilter_combine_chain (t : Bracketing (Expr ι)) :
    (t.combine chain).toFilter leaf a =
      ⟨t.row.all fun f => (f.toFilter leaf a).accepted,
        (upToFirst (fun f => !(f.toFilter leaf a).accepted) t.row).flatMap
          fun f => (f.toFilter leaf a).notes⟩ := by
  induction t with
  | single f => simp [Bracketing.combine, Bracketing.row, upToFirst]
  | pair left right ihl ihr =>
    rw [Bracketing.combine, Bracketing.row, upToFirst_append, ← List.not_all_eq_any_not,
      List.all_append, List.flatMap_append]
    ext1
    · rw [toFilter, accepted_chain, ihl, ihr]
    · rw [toFilter, notes_chain, ihl, ihr]
      cases left.row.all fun f => (f.toFilter leaf a).accepted
      · rfl
      · rfl

/-- However a row of disjunctions is bracketed, it is asked up to its first accepting member. -/
theorem toFilter_combine_either (t : Bracketing (Expr ι)) :
    (t.combine either).toFilter leaf a =
      ⟨t.row.any fun f => (f.toFilter leaf a).accepted,
        (upToFirst (fun f => (f.toFilter leaf a).accepted) t.row).flatMap
          fun f => (f.toFilter leaf a).notes⟩ := by
  induction t with
  | single f => simp [Bracketing.combine, Bracketing.row, upToFirst]
  | pair left right ihl ihr =>
    rw [Bracketing.combine, Bracketing.row, upToFirst_append, List.any_append,
      List.flatMap_append]
    ext1
    · rw [toFilter, accepted_either, ihl, ihr]
    · rw [toFilter, notes_either, ihl, ihr]
      cases left.row.any fun f => (f.toFilter leaf a).accepted
      · rfl
      · rfl

/-- De Morgan's law keeps the order in which the leaves are asked. -/
theorem toFilter_negate_chain (p q : Expr ι) :
    (negate (chain p q)).toFilter leaf a = (either (negate p) (negate q)).toFilter leaf a := by
  ext1
  · simp only [toFilter, accepted_negate, accepted_chain, accepted_either, Bool.not_and]
  · simp only [toFilter, notes_negate, notes_chain, notes_either, accepted_negate]
    by_cases h : (p.toFilter leaf a).accepted
    · simp [h]
    · simp [h]

end Expr

/-- **Combinations are evaluated from left to right, as far as needed.**  Whatever the leaves answer
and note, a combination of any depth has the value of its formula as its verdict, and the notes of
exactly those leaves that short-circuit evaluation asks, in their order.  A row of conjunctions has
the same verdict and the same notes under all brackets: those of its members up to and including the
first that rejects; and likewise a row of disjunctions, with the first that accepts.  A negated
conjunction does not differ from the disjunction of the negations. -/
theorem short_circuit_evaluation (leaf : ι → Filter τ α) (a : α) :
    let holds i := (leaf i a).accepted
    let notes (f : Expr ι) := (f.toFilter leaf a).notes
    (∀ f : Expr ι,
      f.toFilter leaf a = ⟨f.value holds, (f.asked holds).flatMap fun i => (leaf i a).notes⟩) ∧
    (∀ t : Bracketing (Expr ι), (t.combine .chain).toFilter leaf a =
      ⟨t.row.all fun f => f.value holds,
        (upToFirst (fun f => !f.value holds) t.row).flatMap notes⟩) ∧
    (∀ t : Bracketing (Expr ι), (t.combine .either).toFilter leaf a =
      ⟨t.row.any fun f => f.value holds,
        (upToFirst (fun f => f.value holds) t.row).flatMap notes⟩) ∧
    ∀ p q : Expr ι,
      (Expr.negate (.chain p q)).toFilter leaf a =
        (Expr.either (.negate p) (.negate q)).toFilter leaf a := by
  intro holds notes
  have hvalue : ∀ f : Expr ι, (f.toFilter leaf a).accepted = f.value holds :=
    Expr.accepted_toFilter leaf a
  refine ⟨?formula, ?conjunctions, ?disjunctions, Expr.toFilter_negate_chain leaf a⟩
  case formula =>
    intro f
    exact Verdict.ext (hvalue f) (Expr.notes_toFilter leaf a f)
  case conjunctions =>
    intro t
    rw [Expr.toFilter_combine_chain]
    simp only [hvalue, notes]
  case disjunctions =>
    intro t
    rw [Expr.toFilter_combine_either]
    simp only [hvalue, notes]

end Filter

end PackagePool
