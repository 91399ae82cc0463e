import PackagePool.Filter.Attribute
import PackagePool.Pool.Basic

/-!
# Items and associations

An item is the view of one occupied slot: its handle, its unit and its status.  An association is
the view of one declared capability: the capability, the kind it is declared under, and the item
that declares it.  An association has the attributes of its item.
-/

namespace PackagePool

/-- One item of a pool. -/
structure Item where
  handle : Handle
  unit : PackageUnit
  status : Status

namespace Item

/-- The name of the unit. -/
def name (item : Item) : String :=
  item.unit.name

/-- The written form is that of the unit. -/
def render (item : Item) : String :=
  item.unit.render

instance : ToString Item := ⟨render⟩

instance : Identified Item := ⟨fun item => item.unit.resolvable⟩

instance : HasStatus Item := ⟨Item.status⟩

instance : HasSource Item := ⟨fun item => item.unit.source⟩

end Item

/-- A capability together with the item that declares it. -/
structure Association where
  capability : Capability
  kind : DepKind
  item : Item

namespace Association

/-- The written form `unit (kind capability)`. -/
def render (a : Association) : String :=
  a.item.render ++ " (" ++ a.kind.name ++ " " ++ a.capability.render ++ ")"

instance : ToString Association := ⟨render⟩

instance : Identified Association := ⟨fun a => resolvable a.item⟩

instance : HasStatus Association := ⟨fun a => a.item.status⟩

instance : HasSource Association := ⟨fun a => source a.item⟩

end Association

/-- A test of an association: of its item, or whether its capability settles a requirement.  The
test `indexed` accepts every association that an index has found. -/
inductive AssociationTest
  | item (test : ItemTest)
  | satisfies (required : Capability)
  | indexed

/-- Whether an association passes a test. -/
def AssociationTest.holds (a : Association) : AssociationTest → Bool
  | item test => test.holds a
  | satisfies required => (required.satisfiedBy a.capability).isYes
  | indexed => true

end PackagePool
