import PackagePool.Capability.Basic
import PackagePool.Kind

/-!
# Declarations

The capabilities that a unit declares, grouped by dependency kind.  The groups stand in the order of
kinds, at most one for a kind; a group is there once its kind has been mentioned, even without a
capability in it.  `Declarations.of` reads the group of a kind, and `of_add_self` and `of_add_ne`
say what adding capabilities does to it.
-/

namespace PackagePool

/-- Groups of capabilities in the order of their kinds. -/
structure Declarations where
  groups : List (DepKind × List Capability)
  ordered : groups.Pairwise fun a b => a.1.rank < b.1.rank

namespace Declarations

/-- Puts capabilities at the end of the group of `kind`; a new group goes to its place in the
order. -/
def insertGroup (kind : DepKind) (caps : List Capability) :
    List (DepKind × List Capability) → List (DepKind × List Capability)
  | [] => [(kind, caps)]
  | (k, declared) :: rest =>
    if k = kind then (k, declared ++ caps) :: rest
    else if kind.rank < k.rank then (kind, caps) :: (k, declared) :: rest
    else (k, declared) :: insertGroup kind caps rest

theorem kind_of_mem_insertGroup {kind : DepKind} {caps : List Capability}
    {groups : List (DepKind × List Capability)} {group : DepKind × List Capability}
    (h : group ∈ insertGroup kind caps groups) :
    group.1 = kind ∨ ∃ other ∈ groups, other.1 = group.1 := by
  induction groups with
  | nil => simp_all [insertGroup]
  | cons head rest ih =>
    obtain ⟨k, declared⟩ := head
    by_cases hk : k = kind
    · grind [insertGroup]
    · by_cases hlt : kind.rank < k.rank <;> grind [insertGroup]

theorem ordered_insertGroup {kind : DepKind} {caps : List Capability}
    {groups : List (DepKind × List Capability)}
    (h : groups.Pairwise fun a b => a.1.rank < b.1.rank) :
    (insertGroup kind caps groups).Pairwise fun a b => a.1.rank < b.1.rank := by
  induction groups with
  | nil => simp [insertGroup]
  | cons head rest ih =>
    obtain ⟨k, declared⟩ := head
    obtain ⟨hhead, hrest⟩ := List.pairwise_cons.1 h
    unfold insertGroup
    split
    · exact List.pairwise_cons.2 ⟨hhead, hrest⟩
    · rename_i hne
      split
      · rename_i hlt
        refine List.pairwise_cons.2 ⟨?_, h⟩
        intro group hmem
        rcases List.mem_cons.1 hmem with rfl | hmem
        · exact hlt
        · exact Nat.lt_trans hlt (hhead group hmem)
      · rename_i hnlt
        have hgt : k.rank < kind.rank := by
          have : k.rank ≠ kind.rank := fun heq => hne (DepKind.rank_injective heq)
          omega
        refine List.pairwise_cons.2 ⟨?_, ih hrest⟩
        intro group hmem
        rcases kind_of_mem_insertGroup hmem with hk | ⟨other, hother, hk⟩
        · simpa [hk] using hgt
        · simpa [← hk] using hhead other hother

/-- No capability under any kind. -/
def empty : Declarations :=
  ⟨[], .nil⟩

/-- Declares further capabilities under `kind`. -/
def add (d : Declarations) (kind : DepKind) (caps : List Capability) : Declarations :=
  ⟨insertGroup kind caps d.groups, ordered_insertGroup d.ordered⟩

/-- The capabilities declared under `kind`, in the order of declaration. -/
def of (d : Declarations) (kind : DepKind) : List Capability :=
  (d.groups.lookup kind).getD []

/-- The kinds that have been mentioned. -/
def kinds (d : Declarations) : List DepKind :=
  d.groups.map (·.1)

instance : BEq Declarations := ⟨fun a b => a.groups == b.groups⟩

theorem lookup_insertGroup_self (kind : DepKind) (caps : List Capability)
    {groups : List (DepKind × List Capability)}
    (h : groups.Pairwise fun a b => a.1.rank < b.1.rank) :
    (insertGroup kind caps groups).lookup kind = some ((groups.lookup kind).getD [] ++ caps) := by
  induction groups with
  | nil => simp [insertGroup]
  | cons head rest ih =>
    obtain ⟨k, declared⟩ := head
    obtain ⟨hhead, hrest⟩ := List.pairwise_cons.1 h
    unfold insertGroup
    split
    · rename_i heq
      subst heq
      simp
    · rename_i hne
      have hbeq : (kind == k) = false := by simpa using Ne.symm hne
      split
      · rename_i hlt
        have hnone : rest.lookup kind = none := by
          refine List.lookup_eq_none_iff.2 fun group hmem => bne_iff_ne.2 ?_
          have hgt : k.rank < group.1.rank := hhead group hmem
          rintro rfl
          omega
        simp [List.lookup_cons, hbeq, hnone]
      · simp [List.lookup_cons, hbeq, ih hrest]

theorem lookup_insertGroup_ne {kind other : DepKind} (hne : other ≠ kind) (caps : List Capability)
    (groups : List (DepKind × List Capability)) :
    (insertGroup kind caps groups).lookup other = groups.lookup other := by
  induction groups with
  | nil =>
    have hbeq : (other == kind) = false := by simpa using hne
    simp [insertGroup, List.lookup_cons, hbeq]
  | cons head rest ih =>
    obtain ⟨k, declared⟩ := head
    have hbeq : (other == kind) = false := by simpa using hne
    unfold insertGroup
    split
    · rename_i heq
      subst heq
      simp [List.lookup_cons, hbeq]
    · split
      · simp [List.lookup_cons, hbeq]
      · simp [List.lookup_cons, ih]

@[simp] theorem of_empty (kind : DepKind) : empty.of kind = [] := rfl

@[simp] theorem of_add_self (d : Declarations) (kind : DepKind) (caps : List Capability) :
    (d.add kind caps).of kind = d.of kind ++ caps := by
  simp [of, add, lookup_insertGroup_self kind caps d.ordered]

theorem of_add_ne (d : Declarations) {kind other : DepKind} (hne : other ≠ kind)
    (caps : List Capability) : (d.add kind caps).of other = d.of other := by
  simp [of, add, lookup_insertGroup_ne hne]

end Declarations

end PackagePool
