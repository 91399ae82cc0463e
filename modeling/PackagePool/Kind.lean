/-!
# Kinds

A kind is the category of an installable thing; it is fixed when the thing is described.  A
dependency kind is the heading under which a capability is declared.  Both are written in lower case
and compare by their place in the list of all kinds.
-/

namespace PackagePool

/-- A text that names no kind, or no dependency kind. -/
inductive KindError
  | unknownKind (text : String)
  | unknownDepKind (text : String)
  deriving DecidableEq, Repr

/-- The message does not repeat the text. -/
def KindError.message (_ : KindError) : String :=
  "Matching variant not found"

/-- The category of an installable thing. -/
inductive Kind
  | package
  | patch
  | pattern
  | product
  | srcPackage
  | message
  | script
  | selection
  | language
  | atom
  | system
  deriving DecidableEq, Repr, Hashable, Inhabited

namespace Kind

/-- The kinds in their order. -/
def all : List Kind :=
  [package, patch, pattern, product, srcPackage, message, script, selection, language, atom, system]

/-- The kinds in which software is delivered. -/
def principal : List Kind :=
  [package, patch, pattern, product, srcPackage]

/-- The written form. -/
def name : Kind → String
  | package => "package"
  | patch => "patch"
  | pattern => "pattern"
  | product => "product"
  | srcPackage => "srcpackage"
  | message => "message"
  | script => "script"
  | selection => "selection"
  | language => "language"
  | atom => "atom"
  | system => "system"

instance : ToString Kind := ⟨name⟩

/-- The place in `Kind.all`. -/
def rank (k : Kind) : Nat :=
  k.ctorIdx

instance : Ord Kind := ⟨fun a b => compare a.rank b.rank⟩

/-- The rank is the place in the list of all. -/
theorem getElem?_all_rank (a : Kind) : all[a.rank]? = some a := by
  cases a <;> rfl

theorem rank_injective {a b : Kind} (h : a.rank = b.rank) : a = b := by
  have := getElem?_all_rank a
  rw [h, getElem?_all_rank b] at this
  exact (Option.some.inj this).symm

instance : Std.TransOrd Kind :=
  inferInstanceAs (Std.TransCmp (compareOn rank))

instance : Std.LawfulEqOrd Kind where
  eq_of_compare h := rank_injective (Nat.compare_eq_eq.1 h)

/-- The kind of exactly this name. -/
def ofName? (s : String) : Option Kind :=
  all.find? fun k => k.name == s

/-- Reads a kind; blanks are not ignored. -/
def parse (s : String) : Except KindError Kind :=
  match ofName? s with
  | some k => .ok k
  | none => .error (.unknownKind s)

theorem ofName?_name (k : Kind) : ofName? k.name = some k := by
  cases k <;> decide

end Kind

/-- The heading under which a capability is declared. -/
inductive DepKind
  | provides
  | prerequires
  | requires
  | conflicts
  | obsoletes
  | recommends
  | suggests
  | supplements
  | enhances
  deriving DecidableEq, Repr, Hashable

namespace DepKind

/-- The dependency kinds in their order. -/
def all : List DepKind :=
  [provides, prerequires, requires, conflicts, obsoletes, recommends, suggests, supplements,
    enhances]

/-- The written form. -/
def name : DepKind → String
  | provides => "provides"
  | prerequires => "prerequires"
  | requires => "requires"
  | conflicts => "conflicts"
  | obsoletes => "obsoletes"
  | recommends => "recommends"
  | suggests => "suggests"
  | supplements => "supplements"
  | enhances => "enhances"

instance : ToString DepKind := ⟨name⟩

/-- The place in `DepKind.all`. -/
def rank (k : DepKind) : Nat :=
  k.ctorIdx

instance : Ord DepKind := ⟨fun a b => compare a.rank b.rank⟩

/-- The rank is the place in the list of all. -/
theorem getElem?_all_rank (a : DepKind) : all[a.rank]? = some a := by
  cases a <;> rfl

theorem rank_injective {a b : DepKind} (h : a.rank = b.rank) : a = b := by
  have := getElem?_all_rank a
  rw [h, getElem?_all_rank b] at this
  exact (Option.some.inj this).symm

instance : Std.TransOrd DepKind :=
  inferInstanceAs (Std.TransCmp (compareOn rank))

instance : Std.LawfulEqOrd DepKind where
  eq_of_compare h := rank_injective (Nat.compare_eq_eq.1 h)

/-- The dependency kind of exactly this name. -/
def ofName? (s : String) : Option DepKind :=
  all.find? fun k => k.name == s

/-- Reads a dependency kind; blanks are not ignored. -/
def parse (s : String) : Except KindError DepKind :=
  match ofName? s with
  | some k => .ok k
  | none => .error (.unknownDepKind s)

theorem ofName?_name (k : DepKind) : ofName? k.name = some k := by
  cases k <;> decide

end DepKind

end PackagePool
