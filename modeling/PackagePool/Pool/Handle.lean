/-!
# Handles

A handle names an item of a pool by the index of its slot and the generation at which it was
inserted.  Slots are reused and generations are not, so a handle that has outlived its item names no
other one.
-/

namespace PackagePool

/-- The name of a pool item. -/
@[ext] structure Handle where
  index : Nat
  generation : UInt64
  deriving DecidableEq, Repr, Hashable

namespace Handle

/-- The written form `#index@generation`. -/
def render (h : Handle) : String :=
  "#" ++ h.index.repr ++ "@" ++ h.generation.toNat.repr

instance : ToString Handle := ⟨render⟩

/-- Handles compare by index, then by generation. -/
def compare (a b : Handle) : Ordering :=
  (Ord.compare a.index b.index).then (Ord.compare a.generation b.generation)

instance : Ord Handle := ⟨compare⟩

end Handle

end PackagePool
