import PackagePool.Filter.Visit
import PackagePool.Proofs.Filter.ShortCircuit

/-!
# How far a visit gets

A visit asks a filter about the values of a list, one after the other, and runs an action on those
that are accepted, until the action refuses to go on.  Both may have a memory, and they may share
it: what is accepted can depend on what the action has done before.

What a visit does to one value is a turn (`Probe.takeTurn`).  If the turns of all values were taken,
whatever the action answers, one of them would be the first to refuse; the values up to that one are
those that the visit reaches (`Probe.reached`).  The main result, `visits_up_to_refusal`, says that
the loop takes one turn with each reached value, in order, and none with the others, and that it
counts the turns in which the action ran.  For a filter that only takes notes, the reached values on
which the action runs can be told without turns: they are the accepted values of the list up to and
including the first on which the action answers `false`.
-/

namespace PackagePool

variable {σ τ α : Type}

namespace Probe

/-! ## Turns -/

/-- What becomes of a value in a visit: it is passed over, or the action runs on it and says whether
to go on. -/
inductive Turn (α : Type)
  | passed (a : α)
  | ran (a : α) (goOn : Bool)
  deriving DecidableEq, Repr

namespace Turn

/-- The value that had the turn. -/
def value : Turn α → α
  | passed a => a
  | ran a _ => a

/-- The action ran. -/
def isRun : Turn α → Bool
  | passed _ => false
  | ran _ _ => true

/-- The action ran and refused to go on. -/
def refuses : Turn α → Bool
  | passed _ => false
  | ran _ goOn => !goOn

/-- How the loop of a visit goes on after a turn, with its count of runs. -/
def tally (count : Nat) : Turn α → ForInStep Nat
  | passed _ => .yield count
  | ran _ true => .yield (count + 1)
  | ran _ false => .done (count + 1)

theorem isRun_of_refuses {t : Turn α} (h : t.refuses = true) : t.isRun = true := by
  cases t with
  | passed a => cases h
  | ran a goOn => rfl

end Turn

variable (probe : Probe σ α) (action : α → StateM σ Bool)

/-- Asks the probe about a value and, if the value is accepted, runs the action on it. -/
def takeTurn (a : α) : StateM σ (Turn α) := do
  if ← probe a then return .ran a (← action a) else return .passed a

/-- Takes a turn with each value of a list, one after the other. -/
def takeTurns (xs : List α) : StateM σ (List (Turn α)) :=
  xs.mapM (probe.takeTurn action)

/-- The values of a list up to and including the first whose turn refuses to go on. -/
def reached (memory : σ) (xs : List α) : List α :=
  (Filter.upToFirst Turn.refuses ((probe.takeTurns action xs).run memory).1).map Turn.value

theorem value_takeTurn (a : α) (memory : σ) :
    ((probe.takeTurn action a).run memory).1.value = a := by
  have hrun : (probe.takeTurn action a).run memory =
      (if ((probe a).run memory).1 then return .ran a (← action a)
        else return .passed a : StateM σ (Turn α)).run ((probe a).run memory).2 := rfl
  rw [hrun]
  split <;> rfl

section

variable {probe action} {a : α} {memory next : σ} {first : Turn α}

theorem run_takeTurns_cons (hfirst : (probe.takeTurn action a).run memory = (first, next))
    (xs : List α) :
    (probe.takeTurns action (a :: xs)).run memory =
      (first :: ((probe.takeTurns action xs).run next).1,
        ((probe.takeTurns action xs).run next).2) := by
  simp only [takeTurns, List.mapM_cons, StateT.run_bind, hfirst]
  rfl

theorem reached_cons (hfirst : (probe.takeTurn action a).run memory = (first, next))
    (xs : List α) :
    probe.reached action memory (a :: xs) =
      a :: if first.refuses then [] else probe.reached action next xs := by
  have hvalue := value_takeTurn probe action a memory
  rw [hfirst] at hvalue
  rw [reached, run_takeTurns_cons hfirst, Filter.upToFirst_cons, List.map_cons, hvalue]
  split <;> rfl

end

theorem reached_prefix (memory : σ) (xs : List α) : probe.reached action memory xs <+: xs := by
  induction xs generalizing memory with
  | nil => exact List.nil_prefix
  | cons a xs ih =>
    rcases hfirst : (probe.takeTurn action a).run memory with ⟨first, next⟩
    rw [reached_cons hfirst, List.prefix_cons_inj]
    split
    · exact List.nil_prefix
    · exact ih next

/-! ## The loop -/

/-- The loop of a visit behind `count` runs. -/
def visitFrom (count : Nat) (xs : List α) : StateM σ Nat :=
  forIn xs count fun a count => do return (← probe.takeTurn action a).tally count

/-- Each pass of the loop is a turn. -/
theorem visit_eq_visitFrom (xs : List α) : probe.visit action xs = probe.visitFrom action 0 xs := by
  have hpass : ∀ (a : α) (count : Nat), (do
      if !(← probe a) then return .yield count
      if !(← action a) then return .done (count + 1) else return .yield (count + 1)) =
      (do return (← probe.takeTurn action a).tally count : StateM σ (ForInStep Nat)) := by
    intro a count
    simp only [takeTurn, bind_assoc]
    congr 1
    funext accepted
    cases accepted
    · rfl
    · simp only [Bool.not_true, Bool.false_eq_true, if_false, if_true, bind_assoc, pure_bind]
      congr 1
      funext goOn
      cases goOn <;> rfl
  simp only [visit, visitFrom, ← hpass, bind_pure]

theorem run_visitFrom_cons {probe : Probe σ α} {action : α → StateM σ Bool} {a : α}
    {memory next : σ} {first : Turn α}
    (hfirst : (probe.takeTurn action a).run memory = (first, next)) (count : Nat) (xs : List α) :
    (probe.visitFrom action count (a :: xs)).run memory =
      if first.refuses then (count + 1, next)
      else (probe.visitFrom action (count + if first.isRun then 1 else 0) xs).run next := by
  simp only [visitFrom, List.forIn_cons, bind_assoc, pure_bind, StateT.run_bind, hfirst]
  cases first with
  | passed a => rfl
  | ran a goOn => cases goOn <;> rfl

/-- The loop takes a turn with each value that it reaches, and adds the runs to its count. -/
theorem run_visitFrom (count : Nat) (xs : List α) (memory : σ) :
    (probe.visitFrom action count xs).run memory =
      let turns := (probe.takeTurns action (probe.reached action memory xs)).run memory
      (count + turns.1.countP Turn.isRun, turns.2) := by
  induction xs generalizing count memory with
  | nil => rfl
  | cons a xs ih =>
    rcases hfirst : (probe.takeTurn action a).run memory with ⟨first, next⟩
    rw [run_visitFrom_cons hfirst, reached_cons hfirst, run_takeTurns_cons hfirst]
    split
    · rename_i hrefuses
      simp only [List.countP_cons, Turn.isRun_of_refuses hrefuses, if_true]
      rfl
    · simp only [ih, List.countP_cons]
      rw [Nat.add_comm (List.countP _ _), Nat.add_assoc]

/-- To visit a list is to take a turn with each value that is reached, and to count the runs. -/
theorem run_visit (xs : List α) (memory : σ) :
    (probe.visit action xs).run memory =
      (do return (← probe.takeTurns action (probe.reached action memory xs)).countP Turn.isRun :
        StateM σ Nat).run memory := by
  simp only [visit_eq_visitFrom, run_visitFrom, Nat.zero_add]
  rfl

end Probe

/-! ## Filters that take notes -/

namespace Filter

variable (f : Filter τ α) (action : σ → α → σ × Bool)

theorem run_takeTurn_taking (a : α) (state : σ) (notes : List τ) :
    (f.taking.takeTurn (besideNotes action) a).run (state, notes) =
      if (f a).accepted then
        (.ran a (action state a).2, ((action state a).1, notes ++ (f a).notes))
      else (.passed a, (state, notes ++ (f a).notes)) := by
  have hrun : (f.taking.takeTurn (besideNotes action) a).run (state, notes) =
      (if (f a).accepted then return .ran a (← besideNotes action a)
        else return .passed a :
          StateM (σ × List τ) (Probe.Turn α)).run (state, notes ++ (f a).notes) := rfl
  rw [hrun]
  split <;> rfl

/-- The loop adds the account of a visit to what it finds. -/
theorem run_visitFrom_taking (count : Nat) (xs : List α) (state : σ) (notes : List τ) :
    (f.taking.visitFrom (besideNotes action) count xs).run (state, notes) =
      (count + (f.visit action state xs).runs,
        ((f.visit action state xs).state, notes ++ (f.visit action state xs).notes)) := by
  induction xs generalizing count state notes with
  | nil => exact congrArg (fun notes => (count, (state, notes))) (List.append_nil notes).symm
  | cons a xs ih =>
    have hturn := run_takeTurn_taking f action a state notes
    by_cases haccepted : (f a).accepted
    · rw [if_pos haccepted] at hturn
      rw [Probe.run_visitFrom_cons hturn, visit, if_pos haccepted]
      cases hgoOn : (action state a).2
      · simp [Probe.Turn.refuses, hgoOn]
      · simp [Probe.Turn.refuses, Probe.Turn.isRun, hgoOn, ih, Nat.add_assoc, Nat.add_comm]
    · rw [if_neg haccepted] at hturn
      rw [Probe.run_visitFrom_cons hturn, visit, if_neg haccepted]
      simp [Probe.Turn.refuses, Probe.Turn.isRun, ih]

/-- The answers of an action that runs on each value of a list, whatever it answers. -/
def answers (action : σ → α → σ × Bool) : σ → List α → List Bool
  | _, [] => []
  | state, a :: rest => (action state a).2 :: answers action (action state a).1 rest

/-- To take turns is to run the action on the accepted values, in order, and to take the notes about
all of them. -/
theorem run_takeTurns_taking (xs : List α) (state : σ) (notes : List τ) :
    ∃ turns, (f.taking.takeTurns (besideNotes action) xs).run (state, notes) =
        (turns,
          ((xs.filter fun a => (f a).accepted).foldl (fun state a => (action state a).1) state,
            notes ++ xs.flatMap fun a => (f a).notes)) ∧
      turns.countP Probe.Turn.isRun = (xs.filter fun a => (f a).accepted).length := by
  induction xs generalizing state notes with
  | nil =>
    exact ⟨[], congrArg (fun notes => ([], (state, notes))) (List.append_nil notes).symm, rfl⟩
  | cons a xs ih =>
    have hturn := run_takeTurn_taking f action a state notes
    rw [List.filter_cons]
    split at hturn
    · rename_i haccepted
      obtain ⟨turns, hturns, hcount⟩ := ih (action state a).1 (notes ++ (f a).notes)
      refine ⟨.ran a (action state a).2 :: turns, ?_, ?_⟩
      · simp [Probe.run_takeTurns_cons hturn, hturns, haccepted]
      · simp [List.countP_cons, hcount, haccepted, Probe.Turn.isRun]
    · rename_i hrejected
      obtain ⟨turns, hturns, hcount⟩ := ih state (notes ++ (f a).notes)
      refine ⟨.passed a :: turns, ?_, ?_⟩
      · simp [Probe.run_takeTurns_cons hturn, hturns, hrejected]
      · simp [hcount, hrejected, Probe.Turn.isRun]

/-- The accepted values among those reached are the accepted ones up to and including the first on
which the action answers `false`. -/
theorem filter_reached_taking (xs : List α) (state : σ) (notes : List τ) :
    (f.taking.reached (besideNotes action) (state, notes) xs).filter (fun a => (f a).accepted) =
      let accepted := xs.filter fun a => (f a).accepted
      accepted.take ((answers action state accepted).findIdx (!·) + 1) := by
  induction xs generalizing state notes with
  | nil => rfl
  | cons a xs ih =>
    have hturn := run_takeTurn_taking f action a state notes
    rw [List.filter_cons]
    split at hturn
    · rename_i haccepted
      rw [Probe.reached_cons hturn]
      cases hgoOn : (action state a).2 <;>
        simp [haccepted, hgoOn, answers, Probe.Turn.refuses, List.findIdx_cons, ih]
    · rename_i hrejected
      rw [Probe.reached_cons hturn]
      simp [hrejected, Probe.Turn.refuses, ih]

/-- **A visit runs up to and including the first refusal.**  Whatever the probe and the action
remember, the probe is asked about each reached value once, in order, and about no other; the action
runs on those that are accepted, and its runs are counted.  The account of a filter that takes notes
is that of such a loop: the action has run on the accepted values up to and including the first on
which it answers `false`, on all of them if there is none, and the notes are those about the reached
values. -/
theorem visits_up_to_refusal (xs : List α) :
    (∀ (probe : Probe σ α) (action : α → StateM σ Bool) (memory : σ),
      let reached := probe.reached action memory xs
      reached <+: xs ∧
        (probe.visit action xs).run memory =
          (do return (← probe.takeTurns action reached).countP Probe.Turn.isRun :
            StateM σ Nat).run memory) ∧
    ∀ (f : Filter τ α) (action : σ → α → σ × Bool) (state : σ),
      let account := f.visit action state xs
      let accepted := xs.filter fun a => (f a).accepted
      let ran := accepted.take ((answers action state accepted).findIdx (!·) + 1)
      let reached := f.taking.reached (besideNotes action) (state, []) xs
      (f.taking.visit (besideNotes action) xs).run (state, []) =
          (account.runs, (account.state, account.notes)) ∧
        reached.filter (fun a => (f a).accepted) = ran ∧
        account = ⟨ran.length, ran.foldl (fun state a => (action state a).1) state,
          reached.flatMap fun a => (f a).notes⟩ := by
  refine ⟨?loop, ?notes⟩
  case loop =>
    exact fun probe action memory =>
      ⟨probe.reached_prefix action memory xs, probe.run_visit action xs memory⟩
  case notes =>
    intro f action state account accepted ran reached
    have haccount : (f.taking.visit (besideNotes action) xs).run (state, []) =
        (account.runs, (account.state, account.notes)) := by
      rw [Probe.visit_eq_visitFrom, run_visitFrom_taking, Nat.zero_add]
      rfl
    have hran : reached.filter (fun a => (f a).accepted) = ran :=
      filter_reached_taking f action xs state []
    obtain ⟨turns, hturns, hcount⟩ := run_takeTurns_taking f action reached state []
    have hloop : (account.runs, (account.state, account.notes)) =
        (turns.countP Probe.Turn.isRun,
          (ran.foldl (fun state a => (action state a).1) state,
            reached.flatMap fun a => (f a).notes)) := by
      rw [← haccount, Probe.run_visit, StateT.run_bind, hturns, hran]
      rfl
    rw [hcount, hran] at hloop
    exact ⟨haccount, hran,
      congrArg (fun left : Nat × σ × List τ => Visit.mk left.1 left.2.1 left.2.2) hloop⟩

/-- The action refuses at its second run, so the last value is not asked about. -/
example : visit (fun n => ⟨n % 2 == 0, [n]⟩) (fun seen n => (seen ++ [n], seen.isEmpty)) []
    [2, 3, 4, 6] = ⟨2, [2, 4], [2, 3, 4]⟩ := by
  decide

end Filter

end PackagePool
