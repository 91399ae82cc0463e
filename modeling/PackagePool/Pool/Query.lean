import PackagePool.Filter.Probe
import PackagePool.Filter.Visit
import PackagePool.Pool.Item

/-!
# Queries

Queries give items in slot order, in the order of resolvables, or by name, and associations by the
name of a capability.  The indexed queries follow the order of insertion.  `Pool.select` collects
the handles of the items that a filter accepts, so that they can be changed afterwards;
`Pool.mark` does both.
-/

namespace PackagePool

namespace Pool

variable {τ : Type}

/-- The item in a slot. -/
def item? (p : Pool) (index : Nat) : Option Item :=
  (p.slot? index).map fun slot => ⟨⟨index, slot.generation⟩, slot.unit, slot.status⟩

/-- The item that a handle names. -/
def get (p : Pool) (h : Handle) : Except PoolError Item :=
  match p.check h with
  | .error e => .error e
  | .ok slot => .ok ⟨h, slot.unit, slot.status⟩

/-- The status of the item that a handle names. -/
def getStatus (p : Pool) (h : Handle) : Except PoolError Status :=
  match p.check h with
  | .error e => .error e
  | .ok slot => .ok slot.status

/-- All items in slot order. -/
def items (p : Pool) : List Item :=
  (List.range p.slots.size).filterMap p.item?

/-- All items in the order of their resolvables; equal ones stay in slot order. -/
def sorted (p : Pool) : List Item :=
  p.items.mergeSort fun a b => ((resolvable a).compare (resolvable b)).isLE

/-- The items of a name, in the order of insertion. -/
def byName (p : Pool) (name : String) : List Item :=
  (p.nameIndex.entries name).filterMap p.item?

/-- The association at a place of the capability index. -/
def association? (p : Pool) (kind : DepKind) (ref : CapRef) : Option Association :=
  (p.item? ref.slot).bind fun item =>
    ((item.unit.deps kind)[ref.position]?).map fun capability => ⟨capability, kind, item⟩

/-- The associations of the capabilities that are declared under `kind` and are called `name`, in
the order of insertion.  Only names are compared. -/
def byCapability (p : Pool) (kind : DepKind) (name : String) : List Association :=
  (p.capIndex.entries ⟨kind, name⟩).filterMap (p.association? kind)

/-- The provided capabilities that have the name of the requirement. -/
def providers (p : Pool) (required : Capability) : List Association :=
  p.byCapability .provides required.name

/-- The provided capabilities that settle the requirement. -/
def satisfying (p : Pool) (required : Capability) : List Association :=
  (p.providers required).filter fun a => (required.satisfiedBy a.capability).isYes

/-- The handles of the items that a filter accepts, in slot order, and the notes it took. -/
def select (p : Pool) (f : Filter τ Item) : List Handle × List τ :=
  let (kept, notes) := f.sift p.items
  (kept.map Item.handle, notes)

/-- The handles of the items that a probe accepts, in slot order. -/
def selectWith {σ : Type} (p : Pool) (probe : Probe σ Item) : StateM σ (List Handle) := do
  return (← probe.sift p.items).map Item.handle

/-- Sets or clears the mark of each of the named items in turn.  The answers are the items after
their change, or the refusals. -/
def markAll (p : Pool) (transact : Bool) (causer : Causer) :
    List Handle → Pool × List (Except PoolError Item)
  | [] => (p, [])
  | h :: rest =>
    match p.setTransact h transact causer with
    | .error e =>
      let (final, answers) := p.markAll transact causer rest
      (final, .error e :: answers)
    | .ok changed =>
      let (final, answers) := changed.markAll transact causer rest
      (final, changed.get h :: answers)

/-- Selects items first and sets or clears their marks then. -/
def mark (p : Pool) (f : Filter τ Item) (transact : Bool) (causer : Causer) :
    Pool × List (Except PoolError Item) × List τ :=
  let (handles, notes) := p.select f
  let (final, answers) := p.markAll transact causer handles
  (final, answers, notes)

end Pool

end PackagePool
