import Mathlib.Data.List.Infix
import Mathlib.Tactic.FinCases
import PackagePool.Proofs.Pool.Frame

/-!
# Safety of locks

A lock protects the mark of an item from everything but the operator's own override.  This is a
promise about runs: it has to hold whatever happens to the other items in the meantime, whatever
slots are reused, and through whichever handle a change is asked for.

The main result, `locked_item_stands`, takes a stretch of a run at every point of which a handle
names a locked item, and in which no operation forces the mark of that item.  Then the item is the
same at every point of the stretch: not only its mark and the causer of its mark, but its unit and
its whole status.  A request to set the mark succeeds at any such point exactly if it asks for the
mark that is there already, and its refusal names the unit.

The rules are those of one status (`StatusChange.apply_of_locked`).  `Transition.get_of_locked`
carries them to a transition, after which the status of an item is what the requests through its
handle have made of it.
-/

namespace PackagePool

/-! ## One locked status -/

/-- A change that is not forced and leaves a locked status locked leaves it as it was. -/
theorem StatusChange.apply_of_locked {change : StatusChange} {old new : Status}
    (hlocked : old.locked = true) (hunforced : ∀ transact, change ≠ .forceTransact transact)
    (happly : change.apply old = .ok new) (hstill : new.locked = true) : new = old := by
  cases change with
  | setTransact transact causer =>
    rw [apply, Status.setTransact, hlocked] at happly
    split at happly
    · exact (Except.ok.inj happly).symm
    · cases happly
  | forceTransact transact => exact absurd rfl (hunforced transact)
  | setLock locked =>
    obtain rfl := Except.ok.inj happly
    have hkept : locked = old.locked := hstill.trans hlocked.symm
    rw [Status.setLock, hkept]

/-- A locked status accepts a request for the mark that it has and no other. -/
theorem Status.setTransact_of_locked {s : Status} (hlocked : s.locked = true) (transact : Bool)
    (causer : Causer) :
    s.setTransact transact causer =
      if s.transact = transact then .ok s else .error (.lockedMark transact) := by
  rw [setTransact, hlocked]
  rfl

theorem Status.perform_of_locked {s : Status} {change : StatusChange} (hlocked : s.locked = true)
    (hunforced : ∀ transact, change ≠ .forceTransact transact)
    (hstill : (s.perform change).locked = true) : s.perform change = s := by
  cases happly : change.apply s with
  | error cause => exact perform_of_error happly
  | ok changed =>
    rw [perform_of_ok happly] at hstill ⊢
    exact StatusChange.apply_of_locked hlocked hunforced happly hstill

namespace Pool

/-- Whether an operation overrides the lock of the item that `h` names. -/
def Op.Forces (h : Handle) (op : Op) : Prop :=
  op.handle? = some h ∧ ∃ transact, op.change? = some (.forceTransact transact)

/-- The handle names a locked item. -/
def HoldsLocked (p : Pool) (h : Handle) : Prop :=
  ∃ item, p.get h = .ok item ∧ item.status.locked = true

variable {p q : Pool} {roster : List Item} {op : Op} {r : Response} {ops : List Op} {h : Handle}
  {item : Item}

/-! ## A locked item in a run -/

theorem replay_requests_of_locked {s : Status} (hunforced : ¬ op.Forces h)
    (hlocked : s.locked = true) (hstill : (s.replay (requests h [op])).locked = true) :
    s.replay (requests h [op]) = s := by
  by_cases hhandle : op.handle? = some h
  · cases hchange : op.change? with
    | none => simp [requests, hchange]
    | some change =>
      rw [requests_of_change? hhandle hchange, Status.replay_singleton] at hstill ⊢
      refine Status.perform_of_locked hlocked (fun transact heq => ?_) hstill
      exact hunforced ⟨hhandle, transact, heq ▸ hchange⟩
  · simp [requests, hhandle]

/-- A transition that leaves the item locked, and does not force its mark, leaves it as it was. -/
theorem Transition.get_of_locked (t : Transition p op q r) (hroster : HasRoster p roster)
    (hget : p.get h = .ok item) (hlocked : item.status.locked = true)
    (hunforced : ¬ op.Forces h) (hstill : q.HoldsLocked h) : q.get h = .ok item := by
  obtain ⟨final, hfinal, hfinalLocked⟩ := hstill
  have hkept : ¬ (op = .remove h ∧ ∃ v, r = .removed v) := by
    rintro ⟨rfl, v, rfl⟩
    obtain ⟨slot, hfind, -⟩ := exists_find?_of_get hfinal
    rw [t.find?_of_removed] at hfind
    cases hfind
  have hreplayed := t.get_of_kept hroster hget hkept
  obtain rfl := Except.ok.inj (hreplayed.symm.trans hfinal)
  rw [hfinal, replay_requests_of_locked hunforced hlocked hfinalLocked]

theorem get_after_of_locked (hroster : HasRoster p roster) (hget : p.get h = .ok item)
    (hlocked : item.status.locked = true)
    (hthroughout : ∀ mid, mid <+: ops → (p.after mid).HoldsLocked h)
    (hunforced : ∀ op ∈ ops, ¬ op.Forces h) : (p.after ops).get h = .ok item := by
  induction ops generalizing p roster with
  | nil => exact hget
  | cons op ops ih =>
    have hstep := transition_step p op
    obtain ⟨next, hnext, -⟩ := hroster.transition hstep
    obtain ⟨hnow, hlater⟩ := List.forall_mem_cons.1 hunforced
    have hrest : ∀ mid, mid <+: ops → ((p.step op).1.after mid).HoldsLocked h := fun mid hmid =>
      hthroughout (op :: mid) (List.cons_prefix_cons.2 ⟨rfl, hmid⟩)
    have hstill : (p.step op).1.HoldsLocked h := hrest [] List.nil_prefix
    rw [after_cons]
    exact ih hnext (hstep.get_of_locked hroster hget hlocked hnow hstill) hrest hlater

/-! ## Requests for the mark -/

/-- What a lock guarantees of an item at one point of a run. -/
structure Guards (p : Pool) (item : Item) : Prop where
  get : p.get item.handle = .ok item
  /-- The pool refuses every request for another mark, and its refusal names the unit. -/
  setTransact : ∀ transact causer, (p.step (.setTransact item.handle transact causer)).2 =
    if item.status.transact = transact then .changed else .failed (.lockedItem item.unit)
  /-- Direct access to the status follows the same rule; its refusal does not know the unit. -/
  changeStatus : ∀ transact causer,
    (p.step (.changeStatus item.handle (.setTransact transact causer))).2 =
      if item.status.transact = transact then .changed
      else .failed (.status (.lockedMark transact))

theorem guards_of_locked (hget : p.get h = .ok item) (hlocked : item.status.locked = true) :
    p.Guards item := by
  obtain ⟨slot, hfind, rfl⟩ := exists_find?_of_get hget
  have hrule := Status.setTransact_of_locked hlocked
  constructor
  case get => exact hget
  case setTransact =>
    intro transact causer
    simp only [step, Pool.setTransact, check_of_find? hfind, hrule]
    by_cases hmark : slot.status.transact = transact
    · simp [hmark, settle]
    · simp [hmark, settle]
  case changeStatus =>
    intro transact causer
    simp only [step, Pool.changeStatus, check_of_find? hfind, StatusChange.apply, hrule]
    by_cases hmark : slot.status.transact = transact
    · simp [hmark, settle]
    · simp [hmark, settle]

/-- **Locks are safe over whole runs.**  Where `h` names a locked item at every point of a stretch
of a run, its two ends included, and no operation of the stretch forces the mark of that item, the
item is the same at all these points, with its mark and the causer of its mark.  At each of them a
request to set the mark succeeds exactly if the mark is as requested already, and the message of the
pool's refusal shows the unit. -/
theorem locked_item_stands (config : PoolConfig) (before stretch : List Op) (h : Handle)
    (hlocked : ∀ mid, mid <+: stretch → ((empty config).after (before ++ mid)).HoldsLocked h)
    (hunforced : ∀ op ∈ stretch, ¬ op.Forces h) :
    ∃ item, item.handle = h ∧ item.status.locked = true ∧
      (∀ mid, mid <+: stretch → ((empty config).after (before ++ mid)).Guards item) ∧
      (PoolError.lockedItem item.unit).message = "Status is locked: " ++ item.unit.render := by
  obtain ⟨roster, hroster, -, -⟩ := exists_roster_after config before
  simp only [after_append] at hlocked ⊢
  obtain ⟨item, hget, hstart⟩ := hlocked [] List.nil_prefix
  refine ⟨item, (get_eq_ok_iff.1 hget).2, hstart, fun mid hmid => ?_, rfl⟩
  have hthroughout : ∀ early, early <+: mid →
      (((empty config).after before).after early).HoldsLocked h := fun early hearly =>
    hlocked early (hearly.trans hmid)
  have hkept := get_after_of_locked hroster hget hstart hthroughout fun op hop =>
    hunforced op (hmid.subset hop)
  exact guards_of_locked hkept hstart

/-- The item was marked before it was locked.  Another one comes and goes, and its slot
is reused. -/
theorem locked_item_stands_shell :
    let before := [.insert .shell false, .setTransact ⟨0, 1⟩ true .application,
      .setLock ⟨0, 1⟩ true]
    let stretch := [.setTransact ⟨0, 1⟩ false .user, .insert .shell true, .remove ⟨1, 2⟩,
      .insert .shell true, .setLock ⟨0, 1⟩ true]
    ((empty .default).after (before ++ stretch)).Guards
      ⟨⟨0, 1⟩, .shell, ⟨false, true, true, .application⟩⟩ := by
  intro before stretch
  have hlocked : ∀ mid, mid <+: stretch →
      ((empty .default).after (before ++ mid)).HoldsLocked ⟨0, 1⟩ := by
    intro mid hmid
    rw [← List.mem_inits] at hmid
    fin_cases hmid
    all_goals exact ⟨_, rfl, rfl⟩
  have hunforced : ∀ op ∈ stretch, ¬ op.Forces ⟨0, 1⟩ := by
    simp [stretch, Op.Forces, Op.handle?, Op.change?]
  obtain ⟨item, hhandle, -, hguards, -⟩ :=
    locked_item_stands .default before stretch ⟨0, 1⟩ hlocked hunforced
  have hget := (hguards [] List.nil_prefix).get
  rw [hhandle] at hget
  obtain rfl := Except.ok.inj hget
  exact hguards stretch List.prefix_rfl

end Pool

end PackagePool
