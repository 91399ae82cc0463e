/-!
# Status

The status of a pool item has three facets: whether the item is installed, whether it is marked for
the current transaction, and whether it is locked.  A lock protects the mark: `Status.setTransact`
refuses to change the mark of a locked item, and only the operator's `Status.forceTransact` changes
it nevertheless.  No change touches the installed facet.
-/

namespace PackagePool

/-- Who last changed a transaction mark: dependency resolution, a policy of the application, or the
operator. -/
inductive Causer
  | solver
  | application
  | user
  deriving DecidableEq, Repr, Hashable, Inhabited

/-- The written form. -/
def Causer.name : Causer → String
  | solver => "Solver"
  | application => "Application"
  | user => "User"

instance : ToString Causer := ⟨Causer.name⟩

/-- A one-word summary of a status. -/
inductive Stage
  | installedStable
  | installedToRemove
  | uninstalledStable
  | uninstalledToInstall
  | lockedInstalled
  | lockedUninstalled
  deriving DecidableEq, Repr

/-- The written form. -/
def Stage.name : Stage → String
  | installedStable => "InstalledStable"
  | installedToRemove => "InstalledToRemove"
  | uninstalledStable => "UninstalledStable"
  | uninstalledToInstall => "UninstalledToInstall"
  | lockedInstalled => "LockedInstalled"
  | lockedUninstalled => "LockedUninstalled"

instance : ToString Stage := ⟨Stage.name⟩

/-- The live state of one pool item. -/
structure Status where
  installed : Bool
  transact : Bool
  locked : Bool
  causer : Causer
  deriving DecidableEq, Repr

/-- A lock refused to let the mark be set or cleared. -/
inductive StatusError
  | lockedMark (transact : Bool)
  deriving DecidableEq, Repr

/-- The message shown to the user. -/
def StatusError.message : StatusError → String
  | .lockedMark transact =>
    "Status is locked: cannot " ++ (if transact then "set" else "clear") ++
      " transact on a locked item"

namespace Status

/-- The first status of an item: not marked, on behalf of the solver. -/
def initial (installed locked : Bool) : Status :=
  ⟨installed, false, locked, .solver⟩

/-- Not installed and marked. -/
def toInstall (s : Status) : Bool :=
  !s.installed && s.transact

/-- Installed and marked. -/
def toUninstall (s : Status) : Bool :=
  s.installed && s.transact

/-- A mark shows through a lock. -/
def stage (s : Status) : Stage :=
  match s.installed, s.transact, s.locked with
  | true, true, _ => .installedToRemove
  | false, true, _ => .uninstalledToInstall
  | true, false, true => .lockedInstalled
  | false, false, true => .lockedUninstalled
  | true, false, false => .installedStable
  | false, false, false => .uninstalledStable

/-- Sets or clears the mark on behalf of `causer`.  A request for the mark that is already there
changes nothing and succeeds; any other fails on a locked item. -/
def setTransact (s : Status) (transact : Bool) (causer : Causer) : Except StatusError Status :=
  if s.transact = transact then .ok s
  else if s.locked then .error (.lockedMark transact)
  else .ok { s with transact, causer }

/-- Sets or clears the mark on behalf of the operator, whatever the lock says. -/
def forceTransact (s : Status) (transact : Bool) : Status :=
  { s with transact, causer := .user }

/-- Locks or unlocks; the mark stays as it is. -/
def setLock (s : Status) (locked : Bool) : Status :=
  { s with locked }

/-- One letter per facet: `I` or `U`, then `T` and `L` where they hold. -/
def render (s : Status) : String :=
  (if s.installed then "I" else "U") ++ (if s.transact then "T" else "_") ++
    (if s.locked then "L" else "_")

instance : ToString Status := ⟨render⟩

end Status

/-- A request to change a status. -/
inductive StatusChange
  | setTransact (transact : Bool) (causer : Causer)
  | forceTransact (transact : Bool)
  | setLock (locked : Bool)
  deriving DecidableEq, Repr

/-- The status after a request, or why it is refused. -/
def StatusChange.apply : StatusChange → Status → Except StatusError Status
  | setTransact transact causer, s => s.setTransact transact causer
  | forceTransact transact, s => .ok (s.forceTransact transact)
  | setLock locked, s => .ok (s.setLock locked)

/-- Things that have the status of a pool item. -/
class HasStatus (α : Type) where
  status : α → Status

export HasStatus (status)

instance : HasStatus Status := ⟨id⟩

end PackagePool
