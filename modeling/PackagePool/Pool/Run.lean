import PackagePool.Pool.Basic

/-!
# Runs

An operation on a pool as a value, the response it gets, and the runs that a list of operations
makes.  A failed operation leaves the pool as it is.
-/

namespace PackagePool

namespace Pool

/-- An operation that may change a pool. -/
inductive Op
  | insert (unit : PackageUnit) (installed : Bool)
  | remove (handle : Handle)
  | setTransact (handle : Handle) (transact : Bool) (causer : Causer)
  | forceTransact (handle : Handle) (transact : Bool)
  | setLock (handle : Handle) (locked : Bool)
  | changeStatus (handle : Handle) (change : StatusChange)

/-- What an operation answers. -/
inductive Response
  | inserted (handle : Handle)
  | removed (unit : PackageUnit)
  | changed
  | failed (cause : PoolError)

/-- The pool and the response after an operation that succeeds with a changed pool. -/
def settle (p : Pool) : Except PoolError Pool → Pool × Response
  | .ok changed => (changed, .changed)
  | .error e => (p, .failed e)

/-- Carries out one operation. -/
def step (p : Pool) : Op → Pool × Response
  | .insert u installed =>
    let (changed, handle) := p.insert u installed
    (changed, .inserted handle)
  | .remove h =>
    match p.remove h with
    | .ok (changed, u) => (changed, .removed u)
    | .error e => (p, .failed e)
  | .setTransact h transact causer => p.settle (p.setTransact h transact causer)
  | .forceTransact h transact => p.settle (p.forceTransact h transact)
  | .setLock h locked => p.settle (p.setLock h locked)
  | .changeStatus h change => p.settle (p.changeStatus h change)

/-- Carries out operations in order. -/
def run (p : Pool) : List Op → Pool × List Response
  | [] => (p, [])
  | op :: rest =>
    let (next, response) := p.step op
    let (final, responses) := next.run rest
    (final, response :: responses)

end Pool

end PackagePool
