import PackagePool.Config.Basic
import PackagePool.PackageUnit
import PackagePool.Pool.Handle
import PackagePool.Pool.Index
import PackagePool.Status

/-!
# Pools

A pool owns units together with their live status and hands out handles to them.  Units live in
slots; the slots of removed units are reused, the one that was freed last first.  A generation
counter grows with every insertion and every removal, and each item keeps the generation at which it
was inserted, so that the handle of a removed item is recognised as stale after its slot was reused.

Two indexes lead from names to slots: `nameIndex` from the name of a resolvable, and `capIndex` from
a dependency kind and the name of a capability declared under it.
-/

namespace PackagePool

/-- An occupied slot. -/
structure Slot where
  unit : PackageUnit
  status : Status
  generation : UInt64

/-- Whether a slot holds the same identity from the same origin with the same installed facet. -/
def Slot.isDuplicate (slot : Slot) (u : PackageUnit) (installed : Bool) : Bool :=
  slot.unit.resolvable == u.resolvable && slot.unit.source == u.source &&
    slot.status.installed == installed

/-- What capabilities are looked up by: the kind they are declared under, and their name. -/
structure CapKey where
  kind : DepKind
  name : String
  deriving DecidableEq, Repr

namespace CapKey

instance : Ord CapKey := ⟨compareLex (compareOn kind) (compareOn name)⟩

instance : Std.TransOrd CapKey :=
  inferInstanceAs (Std.TransCmp (compareLex (compareOn kind) (compareOn name)))

instance : Std.LawfulEqOrd CapKey where
  eq_of_compare {a b} h := by
    obtain ⟨hkind, hname⟩ := compareLex_eq_eq.1 h
    cases a; cases b
    simp_all [compareOn]

end CapKey

/-- The place of a declared capability: a slot, and a position in the unit's group. -/
structure CapRef where
  slot : Nat
  position : Nat
  deriving DecidableEq, Repr

/-- Why an operation on a pool fails. -/
inductive PoolError
  | stale (handle : Handle)
  | lockedItem (unit : PackageUnit)
  | status (cause : StatusError)

/-- The message shown to the user. -/
def PoolError.message : PoolError → String
  | .stale handle => s!"Stale pool handle: {handle}"
  | .lockedItem unit => s!"Status is locked: {unit}"
  | .status cause => cause.message

/-- All known units and their live status. -/
structure Pool where
  slots : Array (Option Slot)
  free : List Nat
  generation : UInt64
  live : Nat
  nameIndex : Index String Nat
  capIndex : Index CapKey CapRef
  config : PoolConfig

/-- The places of the capabilities that a unit in slot `index` declares, under their keys. -/
def PackageUnit.capRefs (u : PackageUnit) (index : Nat) :
    List (CapKey × CapRef) :=
  u.declarations.groups.flatMap fun (kind, caps) =>
    caps.zipIdx.map fun (cap, position) => (⟨kind, cap.name⟩, ⟨index, position⟩)

namespace Pool

/-- The pool without items. -/
def empty (config : PoolConfig) : Pool :=
  ⟨#[], [], 0, 0, .empty, .empty, config⟩

/-- The number of live items. -/
def size (p : Pool) : Nat :=
  p.live

/-- What is in a slot. -/
def slot? (p : Pool) (index : Nat) : Option Slot :=
  p.slots[index]?.join

/-- The slot that a handle names, unless the handle is stale. -/
def find? (p : Pool) (h : Handle) : Option Slot :=
  (p.slot? h.index).filter fun slot => slot.generation == h.generation

/-- The slot that a handle names. -/
def check (p : Pool) (h : Handle) : Except PoolError Slot :=
  match p.find? h with
  | some slot => .ok slot
  | none => .error (.stale h)

/-- The handle of an item that makes the insertion of `u` superfluous. -/
def findDuplicate? (p : Pool) (u : PackageUnit) (installed : Bool) : Option Handle :=
  (p.nameIndex.entries u.name).findSome? fun index =>
    (p.slot? index).bind fun slot =>
      if slot.isDuplicate u installed then some ⟨index, slot.generation⟩ else none

/-- The slot for the next new item, and the free slots left then. -/
def vacancy (p : Pool) : Nat × List Nat :=
  match p.free with
  | index :: rest => (index, rest)
  | [] => (p.slots.size, [])

/-- Writes a slot; the slot behind the last one is made by writing it. -/
def writeSlot (slots : Array (Option Slot)) (index : Nat) (slot : Option Slot) :
    Array (Option Slot) :=
  if index < slots.size then slots.setIfInBounds index slot else slots.push slot

/-- Takes in a unit as a new item.  The lock list decides whether it starts locked. -/
def place (p : Pool) (u : PackageUnit) (installed : Bool) : Pool × Handle :=
  let (index, free) := p.vacancy
  let generation := p.generation + 1
  let slot : Slot := ⟨u, .initial installed (p.config.isLocked u.resolvable), generation⟩
  let pool : Pool :=
    { p with
      slots := writeSlot p.slots index (some slot)
      free
      generation
      live := p.live + 1
      nameIndex := p.nameIndex.push u.name index
      capIndex := (u.capRefs index).foldl (fun ix (key, ref) => ix.push key ref) p.capIndex }
  (pool, ⟨index, generation⟩)

/-- Inserts a unit.  If the pool has an item with the same identity, origin and installed facet, the
answer is the handle of that item and the pool stays as it is. -/
def insert (p : Pool) (u : PackageUnit) (installed : Bool) : Pool × Handle :=
  match p.findDuplicate? u installed with
  | some handle => (p, handle)
  | none => p.place u installed

/-- Takes the item in slot `index` out of the slots and the indexes. -/
def vacate (p : Pool) (index : Nat) (u : PackageUnit) : Pool :=
  { p with
    slots := writeSlot p.slots index none
    free := index :: p.free
    generation := p.generation + 1
    live := p.live - 1
    nameIndex := p.nameIndex.discard u.name (· == index)
    capIndex := (u.capRefs index).foldl
      (fun ix (key, _) => ix.discard key fun ref => ref.slot == index) p.capIndex }

/-- Removes an item and gives its unit back. -/
def remove (p : Pool) (h : Handle) : Except PoolError (Pool × PackageUnit) :=
  match p.check h with
  | .error e => .error e
  | .ok slot => .ok (p.vacate h.index slot.unit, slot.unit)

/-- Replaces the status in an occupied slot. -/
def writeStatus (p : Pool) (index : Nat) (slot : Slot) (status : Status) : Pool :=
  { p with slots := writeSlot p.slots index (some { slot with status }) }

/-- Changes the status of an item; the rules of statuses apply. -/
def changeStatus (p : Pool) (h : Handle) (change : StatusChange) : Except PoolError Pool :=
  match p.check h with
  | .error e => .error e
  | .ok slot =>
    match change.apply slot.status with
    | .error cause => .error (.status cause)
    | .ok status => .ok (p.writeStatus h.index slot status)

/-- Sets or clears the mark of an item.  The refusal of a locked item names the unit. -/
def setTransact (p : Pool) (h : Handle) (transact : Bool) (causer : Causer) :
    Except PoolError Pool :=
  match p.check h with
  | .error e => .error e
  | .ok slot =>
    match slot.status.setTransact transact causer with
    | .error _ => .error (.lockedItem slot.unit)
    | .ok status => .ok (p.writeStatus h.index slot status)

/-- Sets or clears the mark of an item, whatever its lock says. -/
def forceTransact (p : Pool) (h : Handle) (transact : Bool) : Except PoolError Pool :=
  p.changeStatus h (.forceTransact transact)

/-- Locks or unlocks an item. -/
def setLock (p : Pool) (h : Handle) (locked : Bool) : Except PoolError Pool :=
  p.changeStatus h (.setLock locked)

end Pool

end PackagePool
