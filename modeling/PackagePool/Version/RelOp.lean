import PackagePool.Text.Blank

/-!
# Relational operators

A relational operator qualifies a versioned capability and chooses the comparison of an edition or
architecture filter.  It holds of an ordering: `≤` holds of "less" and of "equal".  The operator
`any`, written as the empty text or a star, holds of every ordering.
-/

namespace PackagePool

/-- A relational operator. -/
inductive RelOp
  | any
  | eq
  | ne
  | lt
  | le
  | gt
  | ge
  deriving DecidableEq, Repr, Hashable, Inhabited

/-- A text that names no relational operator. -/
structure RelOpError where
  text : String
  deriving DecidableEq, Repr

/-- The message shown to the user. -/
def RelOpError.message (e : RelOpError) : String :=
  s!"Parse error: Unknown relational operator '{e.text}'"

namespace RelOp

/-- Whether the operator holds of two values that compare as `order`. -/
def holds : RelOp → Ordering → Bool
  | any, _ => true
  | eq, order => order == .eq
  | ne, order => order != .eq
  | lt, order => order == .lt
  | le, order => order != .gt
  | gt, order => order == .gt
  | ge, order => order != .lt

/-- The written form; `any` is written as the empty text. -/
def symbol : RelOp → String
  | any => ""
  | eq => "="
  | ne => "!="
  | lt => "<"
  | le => "<="
  | gt => ">"
  | ge => ">="

instance : ToString RelOp := ⟨symbol⟩

/-- Every written form, a star for `any` and a doubled equals sign for `eq` included. -/
def spellings : List (String × RelOp) :=
  [("", any), ("*", any), ("=", eq), ("==", eq), ("!=", ne), ("<", lt), ("<=", le), (">", gt),
    (">=", ge)]

/-- Reads an operator; blanks around it are ignored. -/
def parse (s : String) : Except RelOpError RelOp :=
  match spellings.lookup (Text.trim s) with
  | some op => .ok op
  | none => .error ⟨Text.trim s⟩

end RelOp

end PackagePool
