/-!
# Filters

A filter looks at a value and answers with a verdict: whether it accepts the value, and the notes it
took on the way.  Notes make the evaluation order of a filter part of its result.  Filters combine
by conjunction (`chain`), disjunction (`either`) and negation; the first two stop as soon as the
verdict is settled, and what is not evaluated leaves no notes.

`Filter.Expr` is the written form of a combination: an expression over leaves of any type, which
becomes a filter as soon as each leaf is one.
-/

namespace PackagePool

/-- The answer of a filter about one value. -/
@[ext] structure Verdict (τ : Type) where
  accepted : Bool
  notes : List τ
  deriving DecidableEq, Repr

/-- A predicate on `α` that may take notes of type `τ`. -/
def Filter (τ α : Type) : Type :=
  α → Verdict τ

namespace Filter

variable {τ α β ι : Type}

/-- Accepts every value. -/
def everything : Filter τ α :=
  fun _ => ⟨true, []⟩

/-- Rejects every value. -/
def nothing : Filter τ α :=
  fun _ => ⟨false, []⟩

/-- Accepts the values with a property and takes no notes. -/
def ofPredicate (p : α → Bool) : Filter τ α :=
  fun a => ⟨p a, []⟩

/-- Gives the same answer for every value and notes that it was asked. -/
def noting (note : τ) (accepted : Bool) : Filter τ α :=
  fun _ => ⟨accepted, [note]⟩

/-- Both filters accept; the second is asked only if the first accepts. -/
def chain (f g : Filter τ α) : Filter τ α := fun a =>
  let first := f a
  if first.accepted then
    let second := g a
    ⟨second.accepted, first.notes ++ second.notes⟩
  else first

/-- One of the filters accepts; the second is asked only if the first rejects. -/
def either (f g : Filter τ α) : Filter τ α := fun a =>
  let first := f a
  if first.accepted then first
  else
    let second := g a
    ⟨second.accepted, first.notes ++ second.notes⟩

/-- Accepts what `f` rejects. -/
def negate (f : Filter τ α) : Filter τ α := fun a =>
  let inner := f a
  ⟨!inner.accepted, inner.notes⟩

/-- Looks at one aspect of a value. -/
def comap (aspect : β → α) (f : Filter τ α) : Filter τ β :=
  fun b => f (aspect b)

/-- The accepted values of a list in order, and the notes taken while asking about each of them
once. -/
def sift (f : Filter τ α) : List α → List α × List τ
  | [] => ([], [])
  | a :: rest =>
    let verdict := f a
    let (kept, notes) := sift f rest
    (if verdict.accepted then a :: kept else kept, verdict.notes ++ notes)

/-- A combination of leaves. -/
inductive Expr (ι : Type)
  | everything
  | nothing
  | leaf (i : ι)
  | chain (f g : Expr ι)
  | either (f g : Expr ι)
  | negate (f : Expr ι)
  deriving DecidableEq, Repr

/-- The filter that an expression stands for. -/
def Expr.toFilter (leaf : ι → Filter τ α) : Expr ι → Filter τ α
  | .everything => Filter.everything
  | .nothing => Filter.nothing
  | .leaf i => leaf i
  | .chain f g => (f.toFilter leaf).chain (g.toFilter leaf)
  | .either f g => (f.toFilter leaf).either (g.toFilter leaf)
  | .negate f => (f.toFilter leaf).negate

@[simp] theorem accepted_chain (f g : Filter τ α) (a : α) :
    (f.chain g a).accepted = ((f a).accepted && (g a).accepted) := by
  cases h : (f a).accepted
  · simp [chain, h]
  · simp [chain, h]

@[simp] theorem notes_chain (f g : Filter τ α) (a : α) :
    (f.chain g a).notes = (f a).notes ++ if (f a).accepted then (g a).notes else [] := by
  cases h : (f a).accepted
  · simp [chain, h]
  · simp [chain, h]

@[simp] theorem accepted_either (f g : Filter τ α) (a : α) :
    (f.either g a).accepted = ((f a).accepted || (g a).accepted) := by
  cases h : (f a).accepted
  · simp [either, h]
  · simp [either, h]

@[simp] theorem notes_either (f g : Filter τ α) (a : α) :
    (f.either g a).notes = (f a).notes ++ if (f a).accepted then [] else (g a).notes := by
  cases h : (f a).accepted
  · simp [either, h]
  · simp [either, h]

@[simp] theorem accepted_negate (f : Filter τ α) (a : α) :
    (f.negate a).accepted = !(f a).accepted := rfl

@[simp] theorem notes_negate (f : Filter τ α) (a : α) : (f.negate a).notes = (f a).notes := rfl

theorem sift_fst (f : Filter τ α) (xs : List α) :
    (f.sift xs).1 = xs.filter fun a => (f a).accepted := by
  induction xs with
  | nil => rfl
  | cons a rest ih => by_cases h : (f a).accepted <;> simp [sift, h, ih]

theorem sift_snd (f : Filter τ α) (xs : List α) :
    (f.sift xs).2 = xs.flatMap fun a => (f a).notes := by
  induction xs with
  | nil => rfl
  | cons a rest ih => simp [sift, ih]

end Filter

end PackagePool
