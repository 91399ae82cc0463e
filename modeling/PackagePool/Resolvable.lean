import PackagePool.Arch
import PackagePool.Kind
import PackagePool.Version.Edition

/-!
# Resolvables

A resolvable is the identity of an installable thing: kind, name, edition and architecture.  Two
resolvables are equal if all four parts compare equal, so equality inherits the coarseness of
editions.  The order lists names upwards and, within a name, the newest edition first, then the
architectures and the kinds in their order.
-/

namespace PackagePool

open Text

/-- Why parts form no resolvable. -/
inductive IdentityError
  | emptyName (kind : Kind) (edition : Edition) (arch : Arch)
  | blankInName (name : String)

/-- The message shown to the user. -/
def IdentityError.message (e : IdentityError) : String :=
  "Invalid identity: " ++ match e with
    | emptyName kind edition arch => s!"empty name for {kind} {edition}.{arch}"
    | blankInName name => s!"name '{name}' contains whitespace"

/-- The identity of an installable thing.  Its name is a word. -/
structure Resolvable where
  kind : Kind
  name : String
  edition : Edition
  arch : Arch
  name_isWord : IsWord name

namespace Resolvable

/-- The resolvable of the given parts. -/
def ofParts (kind : Kind) (name : String) (edition : Edition) (arch : Arch) :
    Except IdentityError Resolvable :=
  if hempty : name = "" then .error (.emptyName kind edition arch)
  else if hblank : hasBlank name = true then .error (.blankInName name)
  else .ok ⟨kind, name, edition, arch, isWord_iff.2 ⟨hempty, by simpa using hblank⟩⟩

/-- The written form `[kind]name-edition.arch`. -/
def render (r : Resolvable) : String :=
  "[" ++ r.kind.name ++ "]" ++ r.name ++ "-" ++ r.edition.render ++ "." ++ r.arch.name

instance : ToString Resolvable := ⟨render⟩

/-- Name upwards, newest edition first, then architecture, then kind. -/
def compare (a b : Resolvable) : Ordering :=
  (((Ord.compare a.name b.name).then (b.edition.compare a.edition)).then
    (Ord.compare a.arch b.arch)).then (Ord.compare a.kind b.kind)

instance : Ord Resolvable := ⟨compare⟩

instance : BEq Resolvable :=
  ⟨fun a b => a.kind == b.kind && a.name == b.name && a.edition == b.edition && a.arch == b.arch⟩

/-- The kind, the name, what the edition contributes, and the architecture. -/
def fingerprint (r : Resolvable) : Fingerprint :=
  .ordinal r.kind.rank :: .text r.name :: (r.edition.fingerprint ++ [.ordinal r.arch.rank])

instance : Hashable Resolvable := ⟨fun r => hash r.fingerprint⟩

theorem beq_iff {a b : Resolvable} :
    (a == b) = true ↔
      a.kind = b.kind ∧ a.name = b.name ∧ (a.edition == b.edition) = true ∧ a.arch = b.arch := by
  simp only [BEq.beq, Bool.and_eq_true, and_assoc]
  simp

end Resolvable

/-- Things that have the identity of a resolvable. -/
class Identified (α : Type) where
  resolvable : α → Resolvable

export Identified (resolvable)

instance : Identified Resolvable := ⟨id⟩

end PackagePool
