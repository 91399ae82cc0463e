import PackagePool.Pool.Run

/-!
# Operations in place

The operations of a pool as programs that change it step by step.  Each step takes effect at once,
and a failure leaves behind whatever the steps before it have done; nothing is rolled back.  A
change of a status works in the same way on the status that stands in the slot.

`Pool.execute` runs an operation in this way.  It keeps to the order of the steps: a removal empties
the slot before it knows what was in it, takes the capabilities out of their index one by one, and
counts last.
-/

namespace PackagePool

/-- Changes a status step by step. -/
def StatusChange.inPlace : StatusChange → EStateM StatusError Status Unit
  | setTransact transact causer => do
    if (← get).transact = transact then return
    if (← get).locked then throw (.lockedMark transact)
    modify fun s => { s with transact }
    modify fun s => { s with causer }
  | forceTransact transact => do
    modify fun s => { s with transact }
    modify fun s => { s with causer := .user }
  | setLock locked => modify fun s => { s with locked }

namespace Pool

/-- A program that changes a pool step by step and may fail on the way. -/
abbrev Program (α : Type) :=
  EStateM PoolError Pool α

/-- The slot that a handle names; fails if the handle is stale. -/
def lookup (h : Handle) : Program Slot := do
  match (← MonadState.get).find? h with
  | some slot => return slot
  | none => throw (.stale h)

/-- Empties a slot and gives what was in it. -/
def takeSlot (index : Nat) : Program (Option Slot) :=
  modifyGet fun p => (p.slot? index, { p with slots := writeSlot p.slots index none })

/-- Takes one entry of a unit in slot `index` out of the capability index. -/
def dropCapability (index : Nat) (key : CapKey) : Program Unit :=
  modify fun p => { p with capIndex := p.capIndex.discard key fun ref => ref.slot == index }

/-- Takes a unit in slot `index` out of the name index. -/
def dropName (index : Nat) (u : PackageUnit) : Program Unit :=
  modify fun p => { p with nameIndex := p.nameIndex.discard u.name (· == index) }

/-- Removes an item and gives its unit.  The slot is looked at twice, and the second look may fail
after it has emptied the slot. -/
def removeInPlace (h : Handle) : Program PackageUnit := do
  let _ ← lookup h
  match ← takeSlot h.index with
  | none => throw (.stale h)
  | some slot =>
    forM (slot.unit.capRefs h.index) fun ref => dropCapability h.index ref.1
    dropName h.index slot.unit
    modify fun p => { p with free := h.index :: p.free }
    modify fun p => { p with generation := p.generation + 1 }
    modify fun p => { p with live := p.live - 1 }
    return slot.unit

/-- Changes the status in the slot of an item.  What the change has done to the status stays there
even if it fails; the failure is reported through `report`. -/
def changeInPlace (h : Handle) (change : StatusChange)
    (report : PackageUnit → StatusError → PoolError) : Program Response := do
  let slot ← lookup h
  match change.inPlace.run slot.status with
  | .ok _ status =>
    modify (·.writeStatus h.index slot status)
    return .changed
  | .error cause status =>
    modify (·.writeStatus h.index slot status)
    throw (report slot.unit cause)

/-- The program of an operation.  An insertion has no step that could fail. -/
def Op.inPlace : Op → Program Response
  | insert u installed => modifyGet fun p =>
    let (changed, handle) := p.insert u installed
    (.inserted handle, changed)
  | remove h => do return .removed (← removeInPlace h)
  | setTransact h transact causer =>
    changeInPlace h (.setTransact transact causer) fun u _ => .lockedItem u
  | forceTransact h transact => changeInPlace h (.forceTransact transact) fun _ => .status
  | setLock h locked => changeInPlace h (.setLock locked) fun _ => .status
  | changeStatus h change => changeInPlace h change fun _ => .status

/-- Runs an operation in place.  After a failure, the pool is what the failure left behind. -/
def execute (p : Pool) (op : Op) : Pool × Response :=
  match op.inPlace.run p with
  | .ok response left => (left, response)
  | .error cause left => (left, .failed cause)

end Pool

end PackagePool
