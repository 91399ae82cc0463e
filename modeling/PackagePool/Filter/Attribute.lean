import PackagePool.Filter.Basic
import PackagePool.PackageUnit
import PackagePool.Status

/-!
# Attribute tests

Tests of single attributes are the usual leaves of a filter.  Identity tests ask about the
resolvable, status tests about the status, and an item test is one of these or asks about the
origin.  A test applies to every value that has the attribute, so the same test filters bare
identities, units, pool items and associations.
-/

namespace PackagePool

/-- The comparison that an operator stands for in an ordered type. -/
def RelOp.relates {α : Type} [Ord α] (op : RelOp) (a b : α) : Bool :=
  op.holds (compare a b)

/-- A test of the identity.  The policy of an edition or architecture test compares the tested
value, on the left, with the one given here. -/
inductive IdentityTest
  | kind (k : Kind)
  | name (n : String)
  | edition (policy : Edition → Edition → Bool) (e : Edition)
  | arch (policy : Arch → Arch → Bool) (a : Arch)

namespace IdentityTest

/-- The edition stands in a relation to `e`. -/
def editionIs (op : RelOp) (e : Edition) : IdentityTest :=
  edition op.relates e

/-- The editions match as ranges do, so that a missing release matches any. -/
def editionMatches (e : Edition) : IdentityTest :=
  edition (fun a b => a.matchCompare b == .eq) e

/-- The architecture stands in a relation to `a`. -/
def archIs (op : RelOp) (a : Arch) : IdentityTest :=
  arch op.relates a

/-- The architecture installs on a system of architecture `a`. -/
def installsOn (a : Arch) : IdentityTest :=
  arch Arch.installsOn a

/-- Whether a resolvable passes a test. -/
def holds (r : Resolvable) : IdentityTest → Bool
  | kind k => r.kind == k
  | name n => r.name == n
  | edition policy e => policy r.edition e
  | arch policy a => policy r.arch a

end IdentityTest

/-- A test of the status. -/
inductive StatusTest
  | installed
  | uninstalled
  | transacts
  | idle
  | locked
  deriving DecidableEq, Repr

/-- Whether a status passes a test. -/
def StatusTest.holds (s : Status) : StatusTest → Bool
  | installed => s.installed
  | uninstalled => !s.installed
  | transacts => s.transact
  | idle => !s.transact
  | locked => s.locked

/-- A test of one attribute of a unit. -/
inductive UnitTest
  | identity (test : IdentityTest)
  | source (label : Label)

/-- Whether a value passes a test. -/
def UnitTest.holds {α : Type} [Identified α] [HasSource α] (a : α) : UnitTest → Bool
  | identity test => test.holds (resolvable a)
  | source label => HasSource.source a == label

/-- A test of one attribute of a pool item. -/
inductive ItemTest
  | identity (test : IdentityTest)
  | status (test : StatusTest)
  | source (label : Label)

/-- Whether a value passes a test. -/
def ItemTest.holds {α : Type} [Identified α] [HasStatus α] [HasSource α] (a : α) :
    ItemTest → Bool
  | identity test => test.holds (resolvable a)
  | status test => test.holds (HasStatus.status a)
  | source label => HasSource.source a == label

end PackagePool
