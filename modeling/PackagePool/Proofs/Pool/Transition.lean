import PackagePool.Pool.Query
import PackagePool.Pool.Run

/-!
# Transitions of a pool

What one operation can do to a pool, said once.  A pool changes in three ways only: a unit is placed
in a vacant slot, an item is taken out of its slot, or the status in an occupied slot is rewritten.
`Pool.Transition` lists these cases, each with its guard, together with the three in which nothing
changes: the unit is there already, the status refuses the change, or the handle is stale.
`transition_step` says that every operation is one of them.  Proofs about runs take the cases from
here and do not open the operations again.

What a change does to the other structures of the pool is left to those who need it.  Here is only
what it does to the slots, in terms of `Pool.item?`: each of the three changes touches the one slot
it is about.
-/

namespace PackagePool

/-- Replaces the status of the item in slot `index`. -/
def Item.restatus (index : Nat) (status : Status) (item : Item) : Item :=
  if item.handle.index = index then { item with status } else item

@[simp] theorem Item.restatus_handle (index : Nat) (status : Status) (item : Item) :
    (item.restatus index status).handle = item.handle := by
  unfold Item.restatus
  split <;> rfl

@[simp] theorem Item.restatus_unit (index : Nat) (status : Status) (item : Item) :
    (item.restatus index status).unit = item.unit := by
  unfold Item.restatus
  split <;> rfl

@[simp] theorem Item.restatus_name (index : Nat) (status : Status) (item : Item) :
    (item.restatus index status).name = item.name := by
  rw [Item.name, Item.restatus_unit, Item.name]

namespace Pool

/-! ## Slots and items after a change -/

theorem size_writeSlot {slots : Array (Option Slot)} {index : Nat} (h : index ≤ slots.size)
    (slot : Option Slot) : (writeSlot slots index slot).size = max slots.size (index + 1) := by
  unfold writeSlot
  split
  · rw [Array.size_setIfInBounds]
    omega
  · rw [Array.size_push]
    omega

theorem size_writeSlot_of_lt {slots : Array (Option Slot)} {index : Nat} (h : index < slots.size)
    (slot : Option Slot) : (writeSlot slots index slot).size = slots.size := by
  rw [size_writeSlot (Nat.le_of_lt h)]
  omega

theorem getElem?_writeSlot {slots : Array (Option Slot)} {index : Nat} (h : index ≤ slots.size)
    (slot : Option Slot) (other : Nat) :
    (writeSlot slots index slot)[other]? = if other = index then some slot else slots[other]? := by
  unfold writeSlot
  split
  · rename_i hlt
    rw [Array.getElem?_setIfInBounds]
    by_cases hother : other = index
    · simp [hother, hlt]
    · simp [hother, Ne.symm hother]
  · have hsize : index = slots.size := by omega
    rw [Array.getElem?_push, ← hsize]

theorem join_getElem?_writeSlot {slots : Array (Option Slot)} {index : Nat}
    (h : index ≤ slots.size) (slot : Option Slot) (other : Nat) :
    (writeSlot slots index slot)[other]?.join =
      if other = index then slot else slots[other]?.join := by
  rw [getElem?_writeSlot h]
  split
  · rfl
  · rfl

/-- Writes to different slots commute. -/
theorem writeSlot_comm {slots : Array (Option Slot)} {i j : Nat} (hne : i ≠ j)
    (hi : i < slots.size) (hj : j ≤ slots.size) (a b : Option Slot) :
    writeSlot (writeSlot slots i a) j b = writeSlot (writeSlot slots j b) i a := by
  have hj' : j ≤ (writeSlot slots i a).size := by
    rw [size_writeSlot_of_lt hi]
    exact hj
  have hi' : i ≤ (writeSlot slots j b).size := by
    rw [size_writeSlot hj]
    omega
  refine Array.ext_getElem? fun k => ?_
  rw [getElem?_writeSlot hj', getElem?_writeSlot (Nat.le_of_lt hi), getElem?_writeSlot hi',
    getElem?_writeSlot hj]
  by_cases hk : k = i
  · have hkj : k ≠ j := hk ▸ hne
    rw [if_neg hkj, if_pos hk, if_pos hk]
  · rw [if_neg hk, if_neg hk]

theorem lt_size_of_slot? {p : Pool} {index : Nat} {slot : Slot} (h : p.slot? index = some slot) :
    index < p.slots.size := by
  rcases Nat.lt_or_ge index p.slots.size with hlt | hge
  · exact hlt
  · rw [slot?, Array.getElem?_eq_none hge] at h
    simp at h

theorem item?_eq_some_iff {p : Pool} {index : Nat} {item : Item} :
    p.item? index = some item ↔
      p.slot? index = some ⟨item.unit, item.status, item.handle.generation⟩ ∧
        item.handle.index = index := by
  obtain ⟨⟨i, generation⟩, unit, status⟩ := item
  simp only [item?, Option.map_eq_some_iff, Item.mk.injEq, Handle.mk.injEq]
  constructor
  · rintro ⟨slot, hslot, ⟨rfl, rfl⟩, rfl, rfl⟩
    exact ⟨hslot, rfl⟩
  · rintro ⟨hslot, rfl⟩
    exact ⟨_, hslot, ⟨rfl, rfl⟩, rfl, rfl⟩

theorem item?_eq_none_iff {p : Pool} {index : Nat} :
    p.item? index = none ↔ p.slot? index = none := by
  simp [item?]

theorem find?_eq_some_iff {p : Pool} {h : Handle} {slot : Slot} :
    p.find? h = some slot ↔ p.slot? h.index = some slot ∧ slot.generation = h.generation := by
  simp [find?, Option.filter_eq_some_iff]

theorem slot?_of_find? {p : Pool} {h : Handle} {slot : Slot} (hfind : p.find? h = some slot) :
    p.slot? h.index = some slot :=
  (find?_eq_some_iff.1 hfind).1

theorem lt_size_of_find? {p : Pool} {h : Handle} {slot : Slot} (hfind : p.find? h = some slot) :
    h.index < p.slots.size :=
  lt_size_of_slot? (slot?_of_find? hfind)

theorem item?_of_find? {p : Pool} {h : Handle} {slot : Slot} (hfind : p.find? h = some slot) :
    p.item? h.index = some ⟨h, slot.unit, slot.status⟩ := by
  obtain ⟨hslot, hgeneration⟩ := find?_eq_some_iff.1 hfind
  rw [item?_eq_some_iff]
  exact ⟨by rw [hslot, ← hgeneration], rfl⟩

/-- Two handles that are accepted and name one slot are the same. -/
theorem eq_of_find?_of_index {p : Pool} {a b : Handle} {slot other : Slot}
    (ha : p.find? a = some slot) (hb : p.find? b = some other) (hindex : a.index = b.index) :
    a = b := by
  have hitem := item?_of_find? ha
  rw [hindex, item?_of_find? hb] at hitem
  exact (congrArg Item.handle (Option.some.inj hitem)).symm

/-- The slot of an accepted handle answers to no other one. -/
theorem find?_eq_none_of_ne {p : Pool} {a b : Handle} {slot : Slot} (ha : p.find? a = some slot)
    (hindex : b.index = a.index) (hne : b ≠ a) : p.find? b = none := by
  cases hb : p.find? b with
  | none => rfl
  | some other => exact absurd (eq_of_find?_of_index hb ha hindex) hne

/-- What a handle finds depends on its own slot only. -/
theorem find?_congr {p q : Pool} {h : Handle} (hslot : q.slot? h.index = p.slot? h.index) :
    q.find? h = p.find? h := by
  rw [find?, find?, hslot]

theorem find?_eq_none_of_slot? {p : Pool} {h : Handle} (hslot : p.slot? h.index = none) :
    p.find? h = none := by
  rw [find?, hslot, Option.filter_none]

theorem find?_eq_none_iff {p : Pool} {h : Handle} :
    p.find? h = none ↔ ∀ item, p.item? h.index = some item → item.handle ≠ h := by
  constructor
  · rintro hnone item hitem rfl
    obtain ⟨hslot, -⟩ := item?_eq_some_iff.1 hitem
    rw [find?_eq_some_iff.2 ⟨hslot, rfl⟩] at hnone
    simp at hnone
  · intro hforeign
    cases hfind : p.find? h with
    | none => rfl
    | some slot => exact absurd rfl (hforeign _ (item?_of_find? hfind))

/-! ## The three ways in which a pool changes -/

/-- The item that the placing of a new unit makes. -/
def arrival (p : Pool) (u : PackageUnit) (installed : Bool) : Item :=
  ⟨(p.place u installed).2, u, .initial installed (p.config.isLocked u.resolvable)⟩

theorem slot?_place {p : Pool} (h : p.vacancy.1 ≤ p.slots.size) (u : PackageUnit)
    (installed : Bool) (index : Nat) :
    (p.place u installed).1.slot? index = if index = p.vacancy.1 then
      some ⟨u, .initial installed (p.config.isLocked u.resolvable), p.generation + 1⟩
      else p.slot? index :=
  join_getElem?_writeSlot h _ index

theorem slot?_vacate {p : Pool} {index : Nat} (h : index < p.slots.size) (u : PackageUnit)
    (other : Nat) :
    (p.vacate index u).slot? other = if other = index then none else p.slot? other :=
  join_getElem?_writeSlot (Nat.le_of_lt h) _ other

theorem slot?_writeStatus {p : Pool} {index : Nat} {slot : Slot} (h : p.slot? index = some slot)
    (status : Status) (other : Nat) :
    (p.writeStatus index slot status).slot? other =
      if other = index then some { slot with status } else p.slot? other :=
  join_getElem?_writeSlot (Nat.le_of_lt (lt_size_of_slot? h)) _ other

theorem size_place {p : Pool} (h : p.vacancy.1 ≤ p.slots.size) (u : PackageUnit)
    (installed : Bool) :
    (p.place u installed).1.slots.size = max p.slots.size (p.vacancy.1 + 1) :=
  size_writeSlot h _

theorem size_vacate {p : Pool} {index : Nat} (h : index < p.slots.size) (u : PackageUnit) :
    (p.vacate index u).slots.size = p.slots.size :=
  size_writeSlot_of_lt h _

theorem size_writeStatus {p : Pool} {index : Nat} (h : index < p.slots.size) (slot : Slot)
    (status : Status) : (p.writeStatus index slot status).slots.size = p.slots.size :=
  size_writeSlot_of_lt h _

theorem item?_place {p : Pool} (h : p.vacancy.1 ≤ p.slots.size) (u : PackageUnit)
    (installed : Bool) (index : Nat) :
    (p.place u installed).1.item? index =
      if index = p.vacancy.1 then some (p.arrival u installed) else p.item? index := by
  rw [item?, slot?_place h]
  split
  · rename_i heq
    subst heq
    rfl
  · rfl

theorem item?_vacate {p : Pool} {index : Nat} (h : index < p.slots.size) (u : PackageUnit)
    (other : Nat) :
    (p.vacate index u).item? other = if other = index then none else p.item? other := by
  rw [item?, slot?_vacate h]
  split
  · rfl
  · rfl

theorem item?_writeStatus {p : Pool} {index : Nat} {slot : Slot} (h : p.slot? index = some slot)
    (status : Status) (other : Nat) :
    (p.writeStatus index slot status).item? other =
      (p.item? other).map (Item.restatus index status) := by
  rw [item?, slot?_writeStatus h, item?]
  by_cases heq : other = index
  · subst heq
    simp [h, Item.restatus]
  · simp [heq, Item.restatus, Function.comp_def]

/-! ## Operations -/

/-- The handle that an operation goes through. -/
def Op.handle? : Op → Option Handle
  | insert _ _ => none
  | remove h => some h
  | setTransact h _ _ => some h
  | forceTransact h _ => some h
  | setLock h _ => some h
  | changeStatus h _ => some h

/-- The status change that an operation asks for. -/
def Op.change? : Op → Option StatusChange
  | insert _ _ => none
  | remove _ => none
  | setTransact _ transact causer => some (.setTransact transact causer)
  | forceTransact _ transact => some (.forceTransact transact)
  | setLock _ locked => some (.setLock locked)
  | changeStatus _ change => some change

/-- The error that a refused status change is reported as: the pool's own operation names the unit,
direct access to the status does not. -/
def Op.refusal (op : Op) (u : PackageUnit) (cause : StatusError) : PoolError :=
  match op with
  | setTransact _ _ _ => .lockedItem u
  | _ => .status cause

/-- What an operation does to a pool, and what it answers. -/
inductive Transition (p : Pool) : Op → Pool → Response → Prop
  | duplicate {u : PackageUnit} {installed : Bool} {h : Handle}
      (hfound : p.findDuplicate? u installed = some h) :
      Transition p (.insert u installed) p (.inserted h)
  | placed {u : PackageUnit} {installed : Bool} (hnone : p.findDuplicate? u installed = none) :
      Transition p (.insert u installed) (p.place u installed).1
        (.inserted (p.arrival u installed).handle)
  | vacated {h : Handle} {slot : Slot} (hfind : p.find? h = some slot) :
      Transition p (.remove h) (p.vacate h.index slot.unit) (.removed slot.unit)
  | rewritten {op : Op} {h : Handle} {change : StatusChange} {slot : Slot} {status : Status}
      (hhandle : op.handle? = some h) (hchange : op.change? = some change)
      (hfind : p.find? h = some slot) (happly : change.apply slot.status = .ok status) :
      Transition p op (p.writeStatus h.index slot status) .changed
  | refused {op : Op} {h : Handle} {change : StatusChange} {slot : Slot} {cause : StatusError}
      (hhandle : op.handle? = some h) (hchange : op.change? = some change)
      (hfind : p.find? h = some slot) (happly : change.apply slot.status = .error cause) :
      Transition p op p (.failed (op.refusal slot.unit cause))
  | stale {op : Op} {h : Handle} (hhandle : op.handle? = some h) (hfind : p.find? h = none) :
      Transition p op p (.failed (.stale h))

theorem insert_of_findDuplicate? {p : Pool} {u : PackageUnit} {installed : Bool} {h : Handle}
    (hfound : p.findDuplicate? u installed = some h) : p.insert u installed = (p, h) := by
  simp [insert, hfound]

theorem insert_of_not_findDuplicate? {p : Pool} {u : PackageUnit} {installed : Bool}
    (hnone : p.findDuplicate? u installed = none) :
    p.insert u installed = p.place u installed := by
  simp [insert, hnone]

theorem check_of_find? {p : Pool} {h : Handle} {slot : Slot} (hfind : p.find? h = some slot) :
    p.check h = .ok slot := by
  simp [check, hfind]

theorem check_of_not_find? {p : Pool} {h : Handle} (hfind : p.find? h = none) :
    p.check h = .error (.stale h) := by
  simp [check, hfind]

/-- What a request for a status change does, by what its handle names and what the status says. -/
def answerChange (p : Pool) (op : Op) (h : Handle) (change : StatusChange) : Pool × Response :=
  match p.find? h with
  | none => (p, .failed (.stale h))
  | some slot =>
    match change.apply slot.status with
    | .ok status => (p.writeStatus h.index slot status, .changed)
    | .error cause => (p, .failed (op.refusal slot.unit cause))

theorem settle_changeStatus (p : Pool) (h : Handle) (change : StatusChange) {op : Op}
    (hrefusal : ∀ u cause, op.refusal u cause = .status cause) :
    p.settle (p.changeStatus h change) = p.answerChange op h change := by
  unfold answerChange
  cases hfind : p.find? h with
  | none => simp only [changeStatus, check_of_not_find? hfind, settle]
  | some slot =>
    simp only [changeStatus, check_of_find? hfind, hrefusal]
    cases change.apply slot.status <;> rfl

theorem settle_setTransact (p : Pool) (h : Handle) (transact : Bool) (causer : Causer) :
    p.settle (p.setTransact h transact causer) =
      p.answerChange (.setTransact h transact causer) h (.setTransact transact causer) := by
  unfold answerChange
  cases hfind : p.find? h with
  | none => simp only [setTransact, check_of_not_find? hfind, settle]
  | some slot =>
    simp only [setTransact, check_of_find? hfind, StatusChange.apply, Op.refusal]
    cases slot.status.setTransact transact causer <;> rfl

theorem step_of_change? {p : Pool} {op : Op} {h : Handle} {change : StatusChange}
    (hhandle : op.handle? = some h) (hchange : op.change? = some change) :
    p.step op = p.answerChange op h change := by
  cases op with
  | insert u installed => cases hchange
  | remove other => cases hchange
  | setTransact other transact causer =>
    cases hhandle
    cases hchange
    exact settle_setTransact p h transact causer
  | forceTransact other transact =>
    cases hhandle
    cases hchange
    exact settle_changeStatus p h _ fun _ _ => rfl
  | setLock other locked =>
    cases hhandle
    cases hchange
    exact settle_changeStatus p h _ fun _ _ => rfl
  | changeStatus other change =>
    cases hhandle
    cases hchange
    exact settle_changeStatus p h _ fun _ _ => rfl

theorem transition_of_change? (p : Pool) {op : Op} {h : Handle} {change : StatusChange}
    (hhandle : op.handle? = some h) (hchange : op.change? = some change) :
    Transition p op (p.step op).1 (p.step op).2 := by
  rw [step_of_change? hhandle hchange]
  unfold answerChange
  cases hfind : p.find? h with
  | none => exact .stale hhandle hfind
  | some slot =>
    cases happly : change.apply slot.status with
    | error cause =>
      simp only [happly]
      exact .refused hhandle hchange hfind happly
    | ok status =>
      simp only [happly]
      exact .rewritten hhandle hchange hfind happly

/-- Every operation is one of the listed transitions. -/
theorem transition_step (p : Pool) (op : Op) : Transition p op (p.step op).1 (p.step op).2 := by
  cases op with
  | insert u installed =>
    cases hdup : p.findDuplicate? u installed with
    | none =>
      simp only [step, insert_of_not_findDuplicate? hdup]
      exact .placed hdup
    | some h =>
      simp only [step, insert_of_findDuplicate? hdup]
      exact .duplicate hdup
  | remove h =>
    cases hfind : p.find? h with
    | none =>
      simp only [step, remove, check_of_not_find? hfind]
      exact .stale rfl hfind
    | some slot =>
      simp only [step, remove, check_of_find? hfind]
      exact .vacated hfind
  | setTransact => exact transition_of_change? p rfl rfl
  | forceTransact => exact transition_of_change? p rfl rfl
  | setLock => exact transition_of_change? p rfl rfl
  | changeStatus => exact transition_of_change? p rfl rfl

theorem step_of_not_find? {p : Pool} {op : Op} {h : Handle} (hhandle : op.handle? = some h)
    (hfind : p.find? h = none) : p.step op = (p, .failed (.stale h)) := by
  cases hchange : op.change? with
  | some change => simp only [step_of_change? hhandle hchange, answerChange, hfind]
  | none =>
    cases op with
    | remove other =>
      cases hhandle
      simp only [step, remove, check_of_not_find? hfind]
    | insert => cases hhandle
    | setTransact => cases hchange
    | forceTransact => cases hchange
    | setLock => cases hchange
    | changeStatus => cases hchange

/-- A transition determines the pool and the response. -/
theorem Transition.step_eq {p q : Pool} {op : Op} {r : Response} (t : Transition p op q r) :
    p.step op = (q, r) := by
  cases t with
  | duplicate hfound => simp only [step, insert_of_findDuplicate? hfound]
  | placed hnone => simp only [step, insert_of_not_findDuplicate? hnone, arrival]
  | vacated hfind => simp only [step, remove, check_of_find? hfind]
  | rewritten hhandle hchange hfind happly =>
    simp only [step_of_change? hhandle hchange, answerChange, hfind, happly]
  | refused hhandle hchange hfind happly =>
    simp only [step_of_change? hhandle hchange, answerChange, hfind, happly]
  | stale hhandle hfind => exact step_of_not_find? hhandle hfind

end Pool

end PackagePool
