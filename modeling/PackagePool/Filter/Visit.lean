import PackagePool.Filter.Probe

/-!
# Visiting accepted values

`Filter.visit` runs an action on the accepted values of a list, in order, and ends the visit when
the action says so.  It tells how often the action ran, the state the action reached, and the notes
the filter took.

`Probe.visit` is the loop behind it.  There the probe and the action share one state, so the action
may change what the probe answers next.  A filter and an action that know nothing of each other
share a state in two parts, one for the action and one for the notes (`Filter.taking`,
`Filter.besideNotes`).
-/

namespace PackagePool

/-- The account of a visit. -/
structure Visit (σ τ : Type) where
  runs : Nat
  state : σ
  notes : List τ
  deriving DecidableEq, Repr

variable {σ τ α : Type}

namespace Filter

/-- Runs `action` on each accepted value until it answers `false`; that last run counts too. -/
def visit (f : Filter τ α) (action : σ → α → σ × Bool) (state : σ) : List α → Visit σ τ
  | [] => ⟨0, state, []⟩
  | a :: rest =>
    let verdict := f a
    if verdict.accepted then
      let (next, goOn) := action state a
      if goOn then
        let later := visit f action next rest
        ⟨later.runs + 1, later.state, verdict.notes ++ later.notes⟩
      else ⟨1, next, verdict.notes⟩
    else
      let later := visit f action state rest
      ⟨later.runs, later.state, verdict.notes ++ later.notes⟩

end Filter

namespace Probe

/-- Runs `action` on each value that the probe accepts until it answers `false`, and counts the
runs; that last run counts too. -/
def visit (probe : Probe σ α) (action : α → StateM σ Bool) (xs : List α) : StateM σ Nat := do
  let mut count := 0
  for a in xs do
    if !(← probe a) then continue
    count := count + 1
    if !(← action a) then break
  return count

end Probe

namespace Filter

/-- Remembers the notes of a filter beside a state. -/
def taking (f : Filter τ α) : Probe (σ × List τ) α := fun a =>
  modifyGet fun (state, notes) => ((f a).accepted, (state, notes ++ (f a).notes))

/-- Runs an action on a state and leaves the notes beside it alone. -/
def besideNotes (action : σ → α → σ × Bool) : α → StateM (σ × List τ) Bool := fun a =>
  modifyGet fun (state, notes) =>
    let (next, goOn) := action state a
    (goOn, (next, notes))

end Filter

end PackagePool
