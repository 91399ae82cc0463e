import Mathlib.Data.List.Sort
import PackagePool.Proofs.Pool.Indexing
import PackagePool.Proofs.Resolvable.Order

/-!
# Units built from declarations

A unit starts bare and takes declarations one by one, each of a single capability or of several ones
under a kind.  What it ends up with depends on the kinds one at a time: under each kind stand the
capabilities declared under it, in the order of declaration, and there is a group for each kind that
was mentioned, even if nothing was declared under it.

The groups of any declarations are determined by this view: they stand in the order of kinds, so
which kinds have been mentioned and what was declared under each of them says it all
(`Declarations.groups_eq`).  The main result, `built_by_kind`, reads off this view what a sequence
of declarations builds, and when two sequences build the same unit.
-/

namespace PackagePool

/-! ## The groups by kind -/

namespace DepKind

theorem mem_all (kind : DepKind) : kind ∈ all :=
  List.mem_of_getElem? (getElem?_all_rank kind)

theorem pairwise_all : all.Pairwise fun a b => a.rank < b.rank := by
  decide

instance : Std.Irrefl fun a b : DepKind => a.rank < b.rank :=
  ⟨fun a => Nat.lt_irrefl a.rank⟩

instance : Std.Antisymm fun a b : DepKind => a.rank < b.rank :=
  ⟨fun _ _ hab hba => absurd hab (Nat.lt_asymm hba)⟩

end DepKind

namespace Declarations

theorem mem_kinds_insertGroup {kind other : DepKind} {caps : List Capability}
    {groups : List (DepKind × List Capability)} :
    other ∈ (insertGroup kind caps groups).map (·.1) ↔
      other = kind ∨ other ∈ groups.map (·.1) := by
  induction groups with
  | nil => simp [insertGroup]
  | cons head rest ih =>
    obtain ⟨k, declared⟩ := head
    unfold insertGroup
    split
    · rename_i heq
      simp [heq]
    · split
      · simp
      · rw [List.map_cons, List.mem_cons, ih, List.map_cons, List.mem_cons, or_left_comm]

/-- To declare under a kind is to mention it, also if nothing is declared. -/
theorem mem_kinds_add {d : Declarations} {kind other : DepKind} {caps : List Capability} :
    other ∈ (d.add kind caps).kinds ↔ other = kind ∨ other ∈ d.kinds :=
  mem_kinds_insertGroup

theorem pairwise_kinds (d : Declarations) : d.kinds.Pairwise fun a b => a.rank < b.rank :=
  List.pairwise_map.2 d.ordered

/-- The kinds that have been mentioned stand in their order. -/
theorem kinds_eq_filter (d : Declarations) : d.kinds = DepKind.all.filter (· ∈ d.kinds) := by
  refine d.pairwise_kinds.eq_of_mem_iff (DepKind.pairwise_all.filter _) fun kind => ?_
  simp [DepKind.mem_all]

/-- A kind has no second group, so the one that is found is the one that is there. -/
theorem of_eq_of_mem {d : Declarations} {kind : DepKind} {caps : List Capability}
    (h : (kind, caps) ∈ d.groups) : d.of kind = caps := by
  obtain ⟨before, after, hgroups⟩ := List.append_of_mem h
  have hordered := d.ordered
  rw [hgroups, List.pairwise_append] at hordered
  have hbefore : ∀ group ∈ before, (kind != group.1) = true := by
    intro group hgroup
    have hlt : group.1.rank < kind.rank := hordered.2.2 group hgroup (kind, caps) List.mem_cons_self
    refine bne_iff_ne.2 ?_
    rintro rfl
    exact Nat.lt_irrefl _ hlt
  have hlookup : d.groups.lookup kind = some caps :=
    List.lookup_eq_some_iff.2 ⟨before, after, hgroups, hbefore⟩
  rw [of, hlookup, Option.getD_some]

/-- The groups are those of the kinds that have been mentioned, each with what was declared under
it. -/
theorem groups_eq (d : Declarations) :
    d.groups = (DepKind.all.filter (· ∈ d.kinds)).map fun kind => (kind, d.of kind) := by
  have hgroup : ∀ group ∈ d.groups, group = (group.1, d.of group.1) := fun group hmem =>
    Prod.ext rfl (of_eq_of_mem hmem).symm
  calc d.groups
      = d.groups.map id := (List.map_id _).symm
    _ = d.groups.map fun group => (group.1, d.of group.1) := List.map_congr_left hgroup
    _ = d.kinds.map fun kind => (kind, d.of kind) := by rw [kinds, List.map_map]; rfl
    _ = (DepKind.all.filter (· ∈ d.kinds)).map fun kind => (kind, d.of kind) := by
        rw [← kinds_eq_filter]

/-- Under a kind that has not been mentioned stands nothing. -/
theorem of_eq_nil {d : Declarations} {kind : DepKind} (h : kind ∉ d.kinds) : d.of kind = [] := by
  have hlookup : d.groups.lookup kind = none := by
    refine List.lookup_eq_none_iff.2 fun group hgroup => bne_iff_ne.2 ?_
    rintro rfl
    exact h (List.mem_map_of_mem hgroup)
  rw [of, hlookup, Option.getD_none]

theorem ext_groups {d e : Declarations} (h : d.groups = e.groups) : d = e := by
  cases d
  cases e
  simp_all

theorem ext_kinds {d e : Declarations} (hkinds : ∀ kind, kind ∈ d.kinds ↔ kind ∈ e.kinds)
    (hof : ∀ kind, d.of kind = e.of kind) : d = e := by
  refine ext_groups ?_
  simp only [groups_eq, hkinds, hof]

theorem map_pair_beq_iff {κ α : Type} [BEq κ] [LawfulBEq κ] [BEq α] {f g : κ → α} {xs ys : List κ} :
    (xs.map (fun k => (k, f k)) == ys.map fun k => (k, g k)) = true ↔
      xs = ys ∧ ∀ k ∈ xs, (f k == g k) = true := by
  induction xs generalizing ys with
  | nil => cases ys <;> simp
  | cons x xs ih =>
    cases ys with
    | nil => simp
    | cons y ys =>
      have hpair : ((x, f x) == (y, g y)) = (x == y && f x == g y) := rfl
      simp only [List.map_cons, List.cons_beq_cons, hpair, Bool.and_eq_true, ih, beq_iff_eq,
        List.cons.injEq, List.forall_mem_cons]
      constructor
      · rintro ⟨⟨rfl, hhead⟩, rfl, hrest⟩
        exact ⟨⟨rfl, rfl⟩, hhead, hrest⟩
      · rintro ⟨⟨rfl, rfl⟩, hhead, hrest⟩
        exact ⟨⟨rfl, hhead⟩, rfl, hrest⟩

/-- Declarations are equal exactly if they are so kind by kind. -/
theorem beq_iff {d e : Declarations} :
    (d == e) = true ↔
      (∀ kind, kind ∈ d.kinds ↔ kind ∈ e.kinds) ∧ ∀ kind, (d.of kind == e.of kind) = true := by
  have hgroups : (d == e) = (d.groups == e.groups) := rfl
  rw [hgroups, groups_eq d, groups_eq e, map_pair_beq_iff]
  constructor
  · rintro ⟨hkinds, hof⟩
    have hmem : ∀ kind, kind ∈ d.kinds ↔ kind ∈ e.kinds := by
      intro kind
      have hmentioned := congrArg (kind ∈ ·) hkinds
      simpa [DepKind.mem_all] using hmentioned
    refine ⟨hmem, fun kind => ?_⟩
    by_cases hkind : kind ∈ d.kinds
    · exact hof kind (by simpa [DepKind.mem_all] using hkind)
    · rw [of_eq_nil hkind, of_eq_nil (fun h => hkind ((hmem kind).2 h))]
      rfl
  · rintro ⟨hkinds, hof⟩
    exact ⟨by simp only [hkinds], fun kind _ => hof kind⟩

end Declarations

/-! ## Sequences of declarations -/

/-- One step in the building of a unit. -/
inductive Declaration
  | single (kind : DepKind) (cap : Capability)
  | several (kind : DepKind) (caps : List Capability)

namespace Declaration

def kind : Declaration → DepKind
  | single kind _ => kind
  | several kind _ => kind

def caps : Declaration → List Capability
  | single _ cap => [cap]
  | several _ caps => caps

/-- What a sequence declares under a kind. -/
def under (kind : DepKind) (steps : List Declaration) : List Capability :=
  (steps.filter fun step => step.kind = kind).flatMap caps

theorem under_append (kind : DepKind) (xs ys : List Declaration) :
    under kind (xs ++ ys) = under kind xs ++ under kind ys := by
  simp [under]

theorem under_cons (kind : DepKind) (step : Declaration) (steps : List Declaration) :
    under kind (step :: steps) =
      (if step.kind = kind then step.caps else []) ++ under kind steps := by
  by_cases h : step.kind = kind <;> simp [under, h]

theorem under_singleton (kind : DepKind) (step : Declaration) :
    under kind [step] = if step.kind = kind then step.caps else [] := by
  rw [under_cons]
  exact List.append_nil _

end Declaration

namespace PackageUnit

/-- Takes one declaration. -/
def declare (u : PackageUnit) : Declaration → PackageUnit
  | .single kind cap => u.withDep kind cap
  | .several kind caps => u.withDeps kind caps

/-- The unit that a sequence of declarations builds. -/
def build (r : Resolvable) (l : Label) (steps : List Declaration) : PackageUnit :=
  steps.foldl declare (bare r l)

theorem declare_eq (u : PackageUnit) (step : Declaration) :
    u.declare step = u.withDeps step.kind step.caps := by
  cases step with
  | single kind cap => rfl
  | several kind caps => rfl

theorem ext_kinds {u v : PackageUnit} (hresolvable : u.resolvable = v.resolvable)
    (hsource : u.source = v.source)
    (hkinds : ∀ kind, kind ∈ u.declarations.kinds ↔ kind ∈ v.declarations.kinds)
    (hdeps : ∀ kind, u.deps kind = v.deps kind) : u = v := by
  have hdeclarations : u.declarations = v.declarations := Declarations.ext_kinds hkinds hdeps
  cases u
  cases v
  simp_all

/-- Units of one identity and origin are equal exactly if they are so kind by kind. -/
theorem beq_iff_kinds {u v : PackageUnit} (hresolvable : u.resolvable = v.resolvable)
    (hsource : u.source = v.source) :
    (u == v) = true ↔
      (∀ kind, kind ∈ u.declarations.kinds ↔ kind ∈ v.declarations.kinds) ∧
        ∀ kind, (u.deps kind == v.deps kind) = true := by
  have hunfold : (u == v) = (u.resolvable == v.resolvable && u.source == v.source &&
    u.declarations == v.declarations) := rfl
  rw [hunfold, hresolvable, hsource, BEq.rfl, BEq.rfl, Bool.true_and, Bool.true_and]
  exact Declarations.beq_iff

/-- What stands in a unit after further declarations. -/
structure Extends (u v : PackageUnit) (steps : List Declaration) : Prop where
  resolvable_eq : v.resolvable = u.resolvable
  source_eq : v.source = u.source
  deps_eq : ∀ kind, v.deps kind = u.deps kind ++ Declaration.under kind steps
  mem_kinds_iff : ∀ kind,
    kind ∈ v.declarations.kinds ↔ kind ∈ u.declarations.kinds ∨ kind ∈ steps.map Declaration.kind

namespace Extends

variable {u v w : PackageUnit} {xs ys : List Declaration}

theorem refl (u : PackageUnit) : u.Extends u [] where
  resolvable_eq := rfl
  source_eq := rfl
  deps_eq _ := (List.append_nil _).symm
  mem_kinds_iff _ := (or_iff_left List.not_mem_nil).symm

theorem trans (huv : u.Extends v xs) (hvw : v.Extends w ys) : u.Extends w (xs ++ ys) where
  resolvable_eq := hvw.resolvable_eq.trans huv.resolvable_eq
  source_eq := hvw.source_eq.trans huv.source_eq
  deps_eq kind := by
    rw [hvw.deps_eq, huv.deps_eq, Declaration.under_append, List.append_assoc]
  mem_kinds_iff kind := by
    rw [hvw.mem_kinds_iff, huv.mem_kinds_iff, List.map_append, List.mem_append, or_assoc]

end Extends

theorem extends_declare (u : PackageUnit) (step : Declaration) :
    u.Extends (u.declare step) [step] := by
  rw [declare_eq]
  refine ⟨rfl, rfl, fun kind => ?_, fun kind => ?_⟩
  · rw [Declaration.under_singleton]
    by_cases h : step.kind = kind
    · rw [if_pos h, ← h, deps_withDeps_self]
    · rw [if_neg h, deps_withDeps_ne u (Ne.symm h), List.append_nil]
  · rw [withDeps, Declarations.mem_kinds_add, List.map_singleton, List.mem_singleton, or_comm]

theorem extends_foldl (u : PackageUnit) (steps : List Declaration) :
    u.Extends (steps.foldl declare u) steps := by
  induction steps generalizing u with
  | nil => exact .refl u
  | cons step steps ih => exact (extends_declare u step).trans (ih (u.declare step))

section

variable (r : Resolvable) (l : Label) (steps : List Declaration)

theorem bare_extends_build : (bare r l).Extends (build r l steps) steps :=
  extends_foldl (bare r l) steps

@[simp] theorem resolvable_build : (build r l steps).resolvable = r :=
  (bare_extends_build r l steps).resolvable_eq

@[simp] theorem source_build : (build r l steps).source = l :=
  (bare_extends_build r l steps).source_eq

@[simp] theorem deps_build (kind : DepKind) :
    (build r l steps).deps kind = Declaration.under kind steps :=
  (bare_extends_build r l steps).deps_eq kind

@[simp] theorem mem_kinds_build {kind : DepKind} :
    kind ∈ (build r l steps).declarations.kinds ↔ kind ∈ steps.map Declaration.kind := by
  rw [(bare_extends_build r l steps).mem_kinds_iff]
  exact or_iff_right List.not_mem_nil

theorem groups_build :
    (build r l steps).declarations.groups =
      (DepKind.all.filter fun kind => kind ∈ steps.map Declaration.kind).map
        fun kind => (kind, Declaration.under kind steps) := by
  rw [Declarations.groups_eq]
  simp only [mem_kinds_build]
  exact List.map_congr_left fun kind _ => congrArg (Prod.mk kind) (deps_build r l steps kind)

end

section

variable {r : Resolvable} {l : Label} {steps others : List Declaration}

theorem build_eq_iff :
    build r l others = build r l steps ↔
      (∀ kind, kind ∈ others.map Declaration.kind ↔ kind ∈ steps.map Declaration.kind) ∧
        ∀ kind, Declaration.under kind others = Declaration.under kind steps := by
  constructor
  · intro heq
    have hkinds : ∀ kind, kind ∈ (build r l others).declarations.kinds ↔
        kind ∈ (build r l steps).declarations.kinds := fun kind => by rw [heq]
    have hdeps : ∀ kind, (build r l others).deps kind = (build r l steps).deps kind :=
      fun kind => by rw [heq]
    simp only [mem_kinds_build, deps_build] at hkinds hdeps
    exact ⟨hkinds, hdeps⟩
  · rintro ⟨hkinds, hunder⟩
    refine ext_kinds (by simp) (by simp) ?_ ?_
    · simpa only [mem_kinds_build] using hkinds
    · simpa only [deps_build] using hunder

theorem build_beq_iff :
    (build r l others == build r l steps) = true ↔
      (∀ kind, kind ∈ others.map Declaration.kind ↔ kind ∈ steps.map Declaration.kind) ∧
        ∀ kind, (Declaration.under kind others == Declaration.under kind steps) = true := by
  rw [beq_iff_kinds (by simp) (by simp)]
  simp only [mem_kinds_build, deps_build]

/-- Declarations under different kinds commute. -/
theorem build_swap (before : List Declaration) {a b : Declaration} (hne : a.kind ≠ b.kind)
    (after : List Declaration) :
    build r l (before ++ a :: b :: after) = build r l (before ++ b :: a :: after) := by
  refine build_eq_iff.2 ⟨fun kind => ?_, fun kind => ?_⟩
  · simp [or_left_comm]
  · simp only [Declaration.under_append, Declaration.under_cons]
    by_cases ha : a.kind = kind
    · have hb : b.kind ≠ kind := fun hb => hne (ha.trans hb.symm)
      simp [ha, hb]
    · simp [ha]

end

/-- **A unit is built kind by kind.**  Under each kind stand the capabilities that were declared
under it, in the order of declaration; there is one group for each kind that was mentioned, in the
order of kinds; and the identity and the origin stay as they are.  Two sequences build the same unit
exactly if they mention the same kinds and declare the same under each of them, and equal units if
what they declare is equal.  So it does not matter how declarations under different kinds are
mixed. -/
theorem built_by_kind (r : Resolvable) (l : Label) (steps : List Declaration) :
    let u := build r l steps
    let mentioned (steps : List Declaration) := steps.map Declaration.kind
    (u.resolvable = r ∧ u.source = l) ∧
      (∀ kind, u.deps kind = Declaration.under kind steps) ∧
      u.declarations.groups =
        (DepKind.all.filter fun kind => kind ∈ mentioned steps).map
          (fun kind => (kind, Declaration.under kind steps)) ∧
      (∀ others, build r l others = u ↔
        (∀ kind, kind ∈ mentioned others ↔ kind ∈ mentioned steps) ∧
          ∀ kind, Declaration.under kind others = Declaration.under kind steps) ∧
      (∀ others, (build r l others == u) = true ↔
        (∀ kind, kind ∈ mentioned others ↔ kind ∈ mentioned steps) ∧
          ∀ kind, (Declaration.under kind others == Declaration.under kind steps) = true) ∧
      ∀ before a b after, a.kind ≠ b.kind →
        build r l (before ++ a :: b :: after) = build r l (before ++ b :: a :: after) := by
  intro u mentioned
  exact ⟨⟨resolvable_build r l steps, source_build r l steps⟩, deps_build r l steps,
    groups_build r l steps, fun others => build_eq_iff, fun others => build_beq_iff,
    fun before a b after hne => build_swap before hne after⟩

/-- A kind without capabilities keeps its group wherever it is mentioned, and the capabilities of
the other kind keep their order. -/
theorem built_by_kind_interleaved :
    let sh : Capability := ⟨"sh", none, Text.isWord_iff.2 (by decide)⟩
    let bash : Capability := ⟨"bash", none, Text.isWord_iff.2 (by decide)⟩
    let first : Declaration := .single .provides sh
    let blank : Declaration := .several .requires []
    let last : Declaration := .single .provides bash
    first.kind ≠ blank.kind ∧
      build shell.resolvable .system ([] ++ first :: blank :: [last]) =
        build shell.resolvable .system ([] ++ blank :: first :: [last]) ∧
      (build shell.resolvable .system [blank, first, last]).declarations.groups =
        [(.provides, [sh, bash]), (.requires, [])] := by
  intro sh bash first blank last
  have hne : first.kind ≠ blank.kind := by decide
  obtain ⟨-, -, hgroups, -, -, hswap⟩ :=
    built_by_kind shell.resolvable .system [blank, first, last]
  exact ⟨hne, hswap [] first blank [last] hne, hgroups⟩

end PackageUnit

end PackagePool
