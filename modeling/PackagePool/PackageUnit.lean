import PackagePool.Declarations
import PackagePool.Label
import PackagePool.Resolvable

/-!
# Units

A unit is what a repository, or the installed system, says about one resolvable: its identity, the
label of its origin, and the capabilities it declares.
-/

namespace PackagePool

/-- An installable thing as loaded from its origin. -/
structure PackageUnit where
  resolvable : Resolvable
  source : Label
  declarations : Declarations

namespace PackageUnit

/-- The unit that declares nothing. -/
def bare (resolvable : Resolvable) (source : Label) : PackageUnit :=
  ⟨resolvable, source, .empty⟩

/-- Declares several capabilities under one kind. -/
def withDeps (u : PackageUnit) (kind : DepKind) (caps : List Capability) : PackageUnit :=
  { u with declarations := u.declarations.add kind caps }

/-- Declares one capability. -/
def withDep (u : PackageUnit) (kind : DepKind) (cap : Capability) : PackageUnit :=
  u.withDeps kind [cap]

/-- The capabilities declared under a kind. -/
def deps (u : PackageUnit) (kind : DepKind) : List Capability :=
  u.declarations.of kind

/-- The name of the resolvable. -/
def name (u : PackageUnit) : String :=
  u.resolvable.name

/-- The written form is that of the resolvable. -/
def render (u : PackageUnit) : String :=
  u.resolvable.render

instance : ToString PackageUnit := ⟨render⟩

/-- Units are equal if their identities, origins and declarations are. -/
instance : BEq PackageUnit :=
  ⟨fun a b => a.resolvable == b.resolvable && a.source == b.source &&
    a.declarations == b.declarations⟩

instance : Identified PackageUnit := ⟨PackageUnit.resolvable⟩

@[simp] theorem deps_bare (r : Resolvable) (l : Label) (kind : DepKind) :
    (bare r l).deps kind = [] := rfl

@[simp] theorem deps_withDeps_self (u : PackageUnit) (kind : DepKind) (caps : List Capability) :
    (u.withDeps kind caps).deps kind = u.deps kind ++ caps :=
  Declarations.of_add_self ..

theorem deps_withDeps_ne (u : PackageUnit) {kind other : DepKind} (hne : other ≠ kind)
    (caps : List Capability) : (u.withDeps kind caps).deps other = u.deps other :=
  Declarations.of_add_ne _ hne _

end PackageUnit

/-- Things that know the label of their origin. -/
class HasSource (α : Type) where
  source : α → Label

export HasSource (source)

instance : HasSource PackageUnit := ⟨PackageUnit.source⟩

end PackagePool
