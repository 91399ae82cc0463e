import PackagePool.Text.Blank

/-!
# Architectures

Installability is a partial order: a package built for `i586` installs on an `i686` or `x86_64`
system but not the other way around, and a `noarch` package installs everywhere.  The order of
architectures is the order of `Arch.all`; it refines the partial order, since within a family a
lower architecture installs on every higher one.
-/

namespace PackagePool

/-- The known architectures, in their order. -/
inductive Arch
  | noarch
  | src
  | nosrc
  | i386
  | i486
  | i586
  | i686
  | athlon
  | x86_64
  | armv7hl
  | aarch64
  | ppc64
  | ppc64le
  | s390x
  | riscv64
  deriving DecidableEq, Repr, Hashable

/-- A text that names no architecture, as it was given. -/
structure ArchError where
  text : String
  deriving DecidableEq, Repr

/-- The message shown to the user. -/
def ArchError.message (e : ArchError) : String :=
  s!"Invalid identity: Unknown architecture '{e.text}'"

namespace Arch

/-- Architectures of one family can run each other's packages, if at all. -/
inductive Family
  | neutral
  | source
  | x86
  | arm32
  | arm64
  | ppc64
  | ppc64le
  | s390x
  | riscv64
  deriving DecidableEq, Repr

/-- The architectures in their order. -/
def all : List Arch :=
  [noarch, src, nosrc, i386, i486, i586, i686, athlon, x86_64, armv7hl, aarch64, ppc64, ppc64le,
    s390x, riscv64]

/-- The written form. -/
def name : Arch → String
  | noarch => "noarch"
  | src => "src"
  | nosrc => "nosrc"
  | i386 => "i386"
  | i486 => "i486"
  | i586 => "i586"
  | i686 => "i686"
  | athlon => "athlon"
  | x86_64 => "x86_64"
  | armv7hl => "armv7hl"
  | aarch64 => "aarch64"
  | ppc64 => "ppc64"
  | ppc64le => "ppc64le"
  | s390x => "s390x"
  | riscv64 => "riscv64"

instance : ToString Arch := ⟨name⟩

/-- The family an architecture belongs to. -/
def family : Arch → Family
  | noarch => .neutral
  | src | nosrc => .source
  | i386 | i486 | i586 | i686 | athlon | x86_64 => .x86
  | armv7hl => .arm32
  | aarch64 => .arm64
  | ppc64 => .ppc64
  | ppc64le => .ppc64le
  | s390x => .s390x
  | riscv64 => .riscv64

/-- The place in `Arch.all`. -/
def rank (a : Arch) : Nat :=
  a.ctorIdx

instance : Ord Arch := ⟨fun a b => compare a.rank b.rank⟩

/-- The rank is the place in the list of all. -/
theorem getElem?_all_rank (a : Arch) : all[a.rank]? = some a := by
  cases a <;> rfl

theorem rank_injective {a b : Arch} (h : a.rank = b.rank) : a = b := by
  have := getElem?_all_rank a
  rw [h, getElem?_all_rank b] at this
  exact (Option.some.inj this).symm

instance : Std.TransOrd Arch :=
  inferInstanceAs (Std.TransCmp (compareOn rank))

instance : Std.LawfulEqOrd Arch where
  eq_of_compare h := rank_injective (Nat.compare_eq_eq.1 h)

/-- The architecture of exactly this name. -/
def ofName? (s : String) : Option Arch :=
  all.find? fun a => a.name == s

/-- Reads an architecture; blanks around its name are ignored. -/
def parse (s : String) : Except ArchError Arch :=
  match ofName? (Text.trim s) with
  | some a => .ok a
  | none => .error ⟨s⟩

/-- Whether a package built for `a` installs on a `target` system.  Source packages only ever match
themselves. -/
def installsOn (a target : Arch) : Bool :=
  a == target || a == noarch ||
    (a.family != .source && target.family != .source && a.family == target.family &&
      a.rank ≤ target.rank)

/-- Whether packages of this architecture hold sources. -/
def isSource (a : Arch) : Bool :=
  a.family == .source

theorem ofName?_name (a : Arch) : ofName? a.name = some a := by
  cases a <;> decide

end Arch

end PackagePool
