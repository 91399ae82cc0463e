import PackagePool.Pool.InPlace
import PackagePool.Proofs.Pool.Chronology

/-!
# Failures

An operation that fails leaves the pool as it was.  For `Pool.step` this is so by the way it is
written: a failure carries no pool.  It says something about the operations in place
(`PackagePool.Pool.InPlace`), whose failures keep what the steps before them have done.  There are
two places to look at.  A removal looks at its slot a second time after emptying it, and would leave
an empty slot behind if that look failed; but it sees what the first one saw.  And a refused status
change writes back the status that it was given.

So both ways of carrying out an operation come to the same (`execute_eq_step`), and the possible
failures can be read off `Pool.Transition`.  The main result, `failures_change_nothing`, lists them
for every pool and every handle.
-/

namespace PackagePool

/-- A refused change has not touched the status. -/
theorem StatusChange.run_inPlace (change : StatusChange) (s : Status) :
    change.inPlace.run s =
      match change.apply s with
      | .ok changed => .ok () changed
      | .error cause => .error cause s := by
  cases change with
  | setTransact transact causer =>
    unfold inPlace
    by_cases hsame : s.transact = transact
    · simp [apply, Status.setTransact, hsame]
    · by_cases hlocked : s.locked = true
      · simp [apply, Status.setTransact, hsame, hlocked]
      · simp [apply, Status.setTransact, hsame, hlocked]
  | forceTransact transact => rfl
  | setLock locked => rfl

/-- A request for the mark is refused exactly on a locked status that has the other mark. -/
theorem Status.exists_setTransact_eq_error_iff {s : Status} {transact : Bool} (causer : Causer) :
    (∃ cause, s.setTransact transact causer = .error cause) ↔
      s.locked = true ∧ transact ≠ s.transact := by
  unfold setTransact
  by_cases hsame : s.transact = transact
  · simp [hsame]
  · by_cases hlocked : s.locked = true
    · simp [hsame, hlocked, Ne.symm hsame]
    · simp [hsame, hlocked]

namespace Pool

variable {p q : Pool} {op : Op} {r : Response} {h : Handle} {slot : Slot} {cause : PoolError}

/-! ## The steps of an operation -/

theorem run_lookup (p : Pool) (h : Handle) :
    (lookup h).run p =
      match p.find? h with
      | some slot => .ok slot p
      | none => .error (.stale h) p := by
  simp only [lookup, EStateM.run_bind, EStateM.run_get]
  cases p.find? h <;> rfl

theorem run_forM_dropCapability (index : Nat) (refs : List (CapKey × CapRef)) (p : Pool) :
    (forM refs fun ref => dropCapability index ref.1).run p =
      .ok () { p with
        capIndex := refs.foldl (fun ix ref => ix.discard ref.1 fun place => place.slot == index)
          p.capIndex } := by
  induction refs generalizing p with
  | nil => rfl
  | cons ref refs ih =>
    rw [List.forM_cons, EStateM.run_bind]
    simp only [dropCapability, EStateM.run_modify]
    exact ih _

/-- The second look at the slot finds what the first one found. -/
theorem run_removeInPlace_of_find? (hfind : p.find? h = some slot) :
    (removeInPlace h).run p = .ok slot.unit (p.vacate h.index slot.unit) := by
  simp only [removeInPlace, EStateM.run_bind, run_lookup, hfind, takeSlot, EStateM.run_modifyGet,
    slot?_of_find? hfind, run_forM_dropCapability, dropName, EStateM.run_modify, EStateM.run_pure]
  rfl

theorem run_removeInPlace_of_not_find? (hfind : p.find? h = none) :
    (removeInPlace h).run p = .error (.stale h) p := by
  simp only [removeInPlace, EStateM.run_bind, run_lookup, hfind]

/-- Writing the status that is there already changes nothing. -/
theorem writeStatus_self {index : Nat} (hslot : p.slot? index = some slot) :
    p.writeStatus index slot slot.status = p := by
  have hslots : writeSlot p.slots index (some slot) = p.slots := by
    refine Array.ext_getElem? fun other => ?_
    rw [getElem?_writeSlot (Nat.le_of_lt (lt_size_of_slot? hslot))]
    split
    · rename_i heq
      rw [heq]
      exact (Option.join_eq_some_iff.1 hslot).symm
    · rfl
  rw [writeStatus, hslots]

theorem run_changeInPlace_of_find? (hfind : p.find? h = some slot) (change : StatusChange)
    (report : PackageUnit → StatusError → PoolError) :
    (changeInPlace h change report).run p =
      match change.apply slot.status with
      | .ok status => .ok .changed (p.writeStatus h.index slot status)
      | .error cause => .error (report slot.unit cause) p := by
  simp only [changeInPlace, EStateM.run_bind, run_lookup, hfind, StatusChange.run_inPlace]
  cases change.apply slot.status with
  | ok status => rfl
  | error cause =>
    simp only [EStateM.run_bind, EStateM.run_modify, writeStatus_self (slot?_of_find? hfind)]
    rfl

theorem run_changeInPlace_of_not_find? (hfind : p.find? h = none) (change : StatusChange)
    (report : PackageUnit → StatusError → PoolError) :
    (changeInPlace h change report).run p = .error (.stale h) p := by
  simp only [changeInPlace, EStateM.run_bind, run_lookup, hfind]

/-! ## Operations in place -/

theorem execute_of_change {change : StatusChange}
    (hprogram : op.inPlace = changeInPlace h change op.refusal) :
    p.execute op = p.answerChange op h change := by
  rw [execute, hprogram, answerChange]
  cases hfind : p.find? h with
  | none => rw [run_changeInPlace_of_not_find? hfind]
  | some slot =>
    rw [run_changeInPlace_of_find? hfind]
    cases happly : change.apply slot.status with
    | ok status => simp only [happly]
    | error cause => simp only [happly]

/-- Carried out step by step, an operation leaves the same pool and gives the same answer, whether
it fails or not. -/
theorem execute_eq_step (p : Pool) (op : Op) : p.execute op = p.step op := by
  cases op with
  | insert u installed => rfl
  | remove h =>
    cases hfind : p.find? h with
    | none =>
      rw [step_of_not_find? rfl hfind, execute, Op.inPlace, EStateM.run_bind,
        run_removeInPlace_of_not_find? hfind]
    | some slot =>
      rw [(Transition.vacated hfind).step_eq, execute, Op.inPlace, EStateM.run_bind,
        run_removeInPlace_of_find? hfind]
      rfl
  | setTransact h transact causer =>
    rw [step_of_change? rfl rfl]
    exact execute_of_change rfl
  | forceTransact h transact =>
    rw [step_of_change? rfl rfl]
    exact execute_of_change rfl
  | setLock h locked =>
    rw [step_of_change? rfl rfl]
    exact execute_of_change rfl
  | changeStatus h change =>
    rw [step_of_change? rfl rfl]
    exact execute_of_change rfl

/-! ## What a failure can be -/

/-- A failure changes nothing.  It is a stale handle or a refused status change. -/
theorem Transition.failure (t : Transition p op q r) (hfailed : r = .failed cause) :
    q = p ∧
      ((∃ h, op.handle? = some h ∧ p.find? h = none ∧ cause = .stale h) ∨
        ∃ h change slot refusal, op.handle? = some h ∧ op.change? = some change ∧
          p.find? h = some slot ∧ change.apply slot.status = .error refusal ∧
          cause = op.refusal slot.unit refusal) := by
  cases t with
  | duplicate => cases hfailed
  | placed => cases hfailed
  | vacated => cases hfailed
  | rewritten => cases hfailed
  | refused hhandle hchange hfind happly =>
    cases hfailed
    exact ⟨rfl, .inr ⟨_, _, _, _, hhandle, hchange, hfind, happly, rfl⟩⟩
  | stale hhandle hfind =>
    cases hfailed
    exact ⟨rfl, .inl ⟨_, hhandle, hfind, rfl⟩⟩

theorem Op.refusal_ne_stale (op : Op) (u : PackageUnit) (refusal : StatusError) (h : Handle) :
    op.refusal u refusal ≠ .stale h := by
  unfold Op.refusal
  split
  · simp
  · simp

theorem step_eq_stale_iff (hhandle : op.handle? = some h) :
    (p.step op).2 = .failed (.stale h) ↔ p.find? h = none := by
  constructor
  · intro hfailed
    obtain ⟨-, ⟨other, hother, hfind, -⟩ | ⟨_, _, slot, refusal, -, -, -, -, hcause⟩⟩ :=
      (transition_step p op).failure hfailed
    · obtain rfl : other = h := Option.some.inj (hother.symm.trans hhandle)
      exact hfind
    · exact absurd hcause.symm (op.refusal_ne_stale _ _ _)
  · intro hfind
    rw [step_of_not_find? hhandle hfind]

theorem step_setTransact_eq_locked_iff (hfind : p.find? h = some slot) (transact : Bool)
    (causer : Causer) :
    (p.step (.setTransact h transact causer)).2 = .failed (.lockedItem slot.unit) ↔
      slot.status.locked = true ∧ transact ≠ slot.status.transact := by
  rw [← Status.exists_setTransact_eq_error_iff causer, step_of_change? rfl rfl,
    answerChange, hfind]
  simp only [StatusChange.apply]
  cases slot.status.setTransact transact causer with
  | ok status => simp
  | error refusal => simp [Op.refusal]

/-- How operations through the handle `h` fail, and that they do no harm then.  A live slot answers
to the handle if it stands at its index and has its generation. -/
structure FailsCleanly (p : Pool) (h : Handle) : Prop where
  /-- Step by step or at once, an operation comes to the same. -/
  execute_eq : ∀ op, p.execute op = p.step op
  /-- An operation fails as stale exactly if no live slot answers to its handle. -/
  stale_iff : ∀ op, op.handle? = some h →
    ((p.execute op).2 = .failed (.stale h) ↔
      ¬ ∃ slot, p.slot? h.index = some slot ∧ slot.generation = h.generation)
  /-- Where one does, a request for the mark fails exactly if the item is locked and has the other
  mark, and the error carries the unit. -/
  locked_iff : ∀ slot, p.slot? h.index = some slot → slot.generation = h.generation →
    ∀ transact causer, (p.execute (.setTransact h transact causer)).2 =
      .failed (.lockedItem slot.unit) ↔ slot.status.locked = true ∧ transact ≠ slot.status.transact
  /-- There is no other failure, direct access to the status apart. -/
  failures : ∀ op cause, op.handle? = some h → (∀ change, op ≠ .changeStatus h change) →
    (p.execute op).2 = .failed cause →
      cause = .stale h ∨ ∃ transact causer slot, op = .setTransact h transact causer ∧
        p.slot? h.index = some slot ∧ slot.generation = h.generation ∧ cause = .lockedItem slot.unit
  /-- Whatever fails, the pool that is left behind is the pool as it was. -/
  unchanged : ∀ op cause, (p.execute op).2 = .failed cause → (p.execute op).1 = p
  stale_message : (PoolError.stale h).message = "Stale pool handle: " ++ h.render
  locked_message : ∀ u, (PoolError.lockedItem u).message = "Status is locked: " ++ u.render

/-- **Failed operations change nothing.**  In every pool, and so in every pool that a run leads to,
the operations through a handle, whichever it is, fail only in the ways that `FailsCleanly` lists,
each under its exact condition, and every failure leaves all of the pool as it was. -/
theorem failures_change_nothing (p : Pool) (h : Handle) : p.FailsCleanly h := by
  constructor
  case execute_eq => exact execute_eq_step p
  case stale_iff =>
    intro op hhandle
    rw [execute_eq_step, step_eq_stale_iff hhandle, Option.eq_none_iff_forall_ne_some]
    simp only [ne_eq, find?_eq_some_iff, not_exists]
  case locked_iff =>
    intro slot hslot hgeneration transact causer
    rw [execute_eq_step]
    exact step_setTransact_eq_locked_iff (find?_eq_some_iff.2 ⟨hslot, hgeneration⟩) transact causer
  case failures =>
    intro op cause hhandle hdirect hfailed
    rw [execute_eq_step] at hfailed
    obtain ⟨-, ⟨other, hother, -, rfl⟩ | ⟨other, change, slot, refusal, hother, hchange, hfind,
      happly, rfl⟩⟩ := (transition_step p op).failure hfailed
    · obtain rfl : other = h := Option.some.inj (hother.symm.trans hhandle)
      exact .inl rfl
    · obtain rfl : other = h := Option.some.inj (hother.symm.trans hhandle)
      obtain ⟨hslot, hgeneration⟩ := find?_eq_some_iff.1 hfind
      cases op with
      | insert => cases hhandle
      | remove => cases hchange
      | setTransact _ transact causer =>
        cases hhandle
        exact .inr ⟨transact, causer, slot, rfl, hslot, hgeneration, rfl⟩
      | forceTransact =>
        cases hchange
        cases happly
      | setLock =>
        cases hchange
        cases happly
      | changeStatus _ change =>
        cases hhandle
        exact absurd rfl (hdirect change)
  case unchanged =>
    intro op cause hfailed
    rw [execute_eq_step] at hfailed ⊢
    exact ((transition_step p op).failure hfailed).1
  case stale_message => rfl
  case locked_message => exact fun u => rfl

end Pool

end PackagePool
