import PackagePool.Resolvable

/-!
# Pool configuration

A configuration holds the architecture of the target system and the list of locks.  A lock entry
covers the resolvables of its kind and name, and of its edition and architecture if it gives them;
a resolvable that some entry covers enters the pool locked.
-/

namespace PackagePool

/-- One entry of the lock list. -/
structure LockEntry where
  kind : Kind
  name : String
  edition : Option Edition
  arch : Option Arch

namespace LockEntry

/-- Covers every edition and architecture of a package name. -/
def package (name : String) : LockEntry :=
  ⟨.package, name, none, none⟩

/-- Whether the entry covers a resolvable. -/
def covers (l : LockEntry) (r : Resolvable) : Bool :=
  l.kind == r.kind && l.name == r.name && l.edition.all (· == r.edition) &&
    l.arch.all (· == r.arch)

instance : BEq LockEntry :=
  ⟨fun a b => a.kind == b.kind && a.name == b.name && a.edition == b.edition && a.arch == b.arch⟩

end LockEntry

/-- The settings a pool is created with. -/
structure PoolConfig where
  systemArch : Option Arch
  locks : List LockEntry

namespace PoolConfig

/-- No system architecture and no locks. -/
def default : PoolConfig :=
  ⟨none, []⟩

instance : Inhabited PoolConfig := ⟨default⟩

instance : BEq PoolConfig := ⟨fun a b => a.systemArch == b.systemArch && a.locks == b.locks⟩

/-- Whether some entry covers the resolvable. -/
def isLocked (c : PoolConfig) (r : Resolvable) : Bool :=
  c.locks.any fun l => l.covers r

/-- The entries that cover the resolvable, by their places in the list. -/
def lockedBy (c : PoolConfig) (r : Resolvable) : List Nat :=
  c.locks.zipIdx.filterMap fun (l, i) => if l.covers r then some i else none

theorem mem_lockedBy_iff {c : PoolConfig} {r : Resolvable} {i : Nat} :
    i ∈ c.lockedBy r ↔ ∃ l, c.locks[i]? = some l ∧ l.covers r = true := by
  simp [lockedBy, List.mem_zipIdx_iff_getElem?]

/-- A resolvable is locked exactly if some entry covers it. -/
theorem isLocked_iff_lockedBy_ne_nil {c : PoolConfig} {r : Resolvable} :
    c.isLocked r = true ↔ c.lockedBy r ≠ [] := by
  rw [isLocked, List.any_eq_true, ← List.isEmpty_eq_false_iff,
    List.isEmpty_eq_false_iff_exists_mem]
  simp only [mem_lockedBy_iff]
  simp only [List.mem_iff_getElem?]
  constructor
  · rintro ⟨l, ⟨i, hi⟩, hcovers⟩
    exact ⟨i, l, hi, hcovers⟩
  · rintro ⟨i, l, hi, hcovers⟩
    exact ⟨l, ⟨i, hi⟩, hcovers⟩

end PoolConfig

end PackagePool
