import PackagePool.Filter.Basic

/-!
# Probes

A probe is a filter with a memory: it may read and change a state whenever it is asked, and what it
answers about one value may depend on what it was asked before.  A filter that takes notes is the
probe that appends its notes to those in memory, and looks at them no further.

Nothing is asked twice and nothing is passed over when a list is sifted, so the effect on the memory
is that of asking about each value in turn (`sift_eq_mapM`).
-/

namespace PackagePool

/-- A predicate on `α` with a memory of type `σ`. -/
abbrev Probe (σ α : Type) : Type :=
  α → StateM σ Bool

namespace Probe

variable {σ α : Type}

/-- The accepted values of a list in order. -/
def sift (probe : Probe σ α) : List α → StateM σ (List α)
  | [] => return []
  | a :: rest => do
    let accepted ← probe a
    let kept ← probe.sift rest
    return if accepted then a :: kept else kept

/-- The members of a list whose answer, in the same place of another list, is positive. -/
def pick (xs : List α) (answers : List Bool) : List α :=
  ((xs.zip answers).filter (·.2)).map (·.1)

theorem pick_cons (a : α) (xs : List α) (accepted : Bool) (answers : List Bool) :
    pick (a :: xs) (accepted :: answers) =
      if accepted then a :: pick xs answers else pick xs answers := by
  cases accepted
  · rfl
  · rfl

theorem pick_sublist (xs : List α) (answers : List Bool) : (pick xs answers).Sublist xs := by
  induction xs generalizing answers with
  | nil => exact List.nil_sublist _
  | cons a xs ih =>
    cases answers with
    | nil => exact List.nil_sublist _
    | cons accepted answers =>
      rw [pick_cons]
      cases accepted
      · exact (ih answers).cons a
      · exact (ih answers).cons_cons a

/-- To sift a list is to ask about each of its values once, in order, and to keep those whose answer
was positive. -/
theorem sift_eq_mapM (probe : Probe σ α) (xs : List α) :
    probe.sift xs = do return pick xs (← xs.mapM probe) := by
  induction xs with
  | nil => rfl
  | cons a rest ih =>
    rw [sift, ih, List.mapM_cons]
    simp only [bind_assoc, pure_bind, pick_cons]

end Probe

namespace Filter

variable {τ α : Type}

/-- Remembers the notes of a filter. -/
def probe (f : Filter τ α) : Probe (List τ) α := fun a =>
  modifyGet fun notes => ((f a).accepted, notes ++ (f a).notes)

theorem run_sift_probe (f : Filter τ α) (xs : List α) (notes : List τ) :
    (f.probe.sift xs).run notes = ((f.sift xs).1, notes ++ (f.sift xs).2) := by
  induction xs generalizing notes with
  | nil => exact congrArg (Prod.mk []) (List.append_nil notes).symm
  | cons a rest ih =>
    have hstep : (f.probe.sift (a :: rest)).run notes =
        let (kept, later) := (f.probe.sift rest).run (notes ++ (f a).notes)
        (if (f a).accepted then a :: kept else kept, later) := rfl
    rw [hstep, ih, sift, List.append_assoc]

end Filter

end PackagePool
