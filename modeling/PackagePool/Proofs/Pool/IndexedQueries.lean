import Mathlib.Data.List.Basic
import PackagePool.Proofs.Pool.Handles

/-!
# Indexed queries

`Pool.byName` and `Pool.byCapability` read an index and look every entry up in the slots; an entry
that leads nowhere is dropped without a word.  A query that lost an entry, or kept one too many,
would give a shorter or a wrong list and no error.

The main result, `exists_scan_after`, excludes this: in every pool that a run leads to, both queries
give what a scan of all live items gives, and the scan goes through the items in the order of
insertion.  That order is told in two ways.  The handles of the scan stand in the order in which the
run answered with them, and their generations ascend as long as the counter does not run over.
Slot order is the order of `Pool.select`, which diverges from the other as soon as a slot is reused.

`Pool.satisfying` looks a requirement up by its name before it matches anything.  The second result,
`satisfying_perm_scan`, says that this loses no answer: matching all provided capabilities of all
items, whatever their names, gives the same associations.
-/

namespace PackagePool

/-- Accepts the items of a name, and takes no notes. -/
def Filter.named {τ : Type} (name : String) : Filter τ Item :=
  .ofPredicate fun item => (ItemTest.identity (.name name)).holds item

namespace Pool

/-- The queries of `p` give what a scan of `live` gives, which lists the items of `p`. -/
structure AnswersByScan (p : Pool) (live : List Item) : Prop where
  perm_items : live.Perm p.items
  byName_eq : ∀ name, p.byName name = live.filter fun item => item.name = name
  /-- For each item in turn, an association for each position with a capability of the name. -/
  byCapability_eq : ∀ kind name, p.byCapability kind name =
    live.flatMap fun item => item.associations kind name
  /-- The filter for a name selects the same handles, in slot order. -/
  byName_perm_select : ∀ {τ : Type} (name : String),
    ((p.byName name).map Item.handle).Perm (p.select (Filter.named name : Filter τ Item)).1
  select_ascending : ∀ {τ : Type} (f : Filter τ Item),
    (p.select f).1.Pairwise fun a b => a.index < b.index

variable {p : Pool} {roster : List Item}

/-! ## Looking entries up -/

theorem association?_of_item? {index position : Nat} {kind : DepKind} {item : Item}
    (hitem : p.item? index = some item) :
    p.association? kind ⟨index, position⟩ =
      ((item.unit.deps kind)[position]?).map fun cap => ⟨cap, kind, item⟩ := by
  simp only [association?, hitem, Option.bind_some]

/-- The entries of an item lead to its associations, and none of them dangles. -/
theorem filterMap_refs {item : Item} (hitem : p.item? item.handle.index = some item)
    (kind : DepKind) (name : String) :
    (item.refs ⟨kind, name⟩).filterMap (p.association? kind) = item.associations kind name := by
  let toAssociation : Capability × Nat → Association := fun c => ⟨c.1, kind, item⟩
  let named := (item.unit.deps kind).zipIdx.filter fun c => c.1.name = name
  have hlookup : ∀ c ∈ named,
      p.association? kind ⟨item.handle.index, c.2⟩ = some (toAssociation c) := by
    intro c hc
    have hposition := List.mem_zipIdx_iff_getElem?.1 (List.mem_of_mem_filter hc)
    rw [association?_of_item? hitem, hposition]
    rfl
  have hnames : named.map Prod.fst = (item.unit.deps kind).filter fun cap => cap.name = name := by
    rw [← List.zipIdx_map_fst 0 (item.unit.deps kind), List.filter_map]
    rfl
  calc (item.refs ⟨kind, name⟩).filterMap (p.association? kind)
      = named.filterMap fun c => p.association? kind ⟨item.handle.index, c.2⟩ := by
        rw [Item.refs, PackageUnit.refsUnder_eq, List.filterMap_map]
        rfl
    _ = named.map toAssociation := by
        rw [List.filterMap_congr hlookup]
        exact congrFun List.filterMap_eq_map named
    _ = (named.map Prod.fst).map fun cap => ⟨cap, kind, item⟩ := by
        rw [List.map_map]
        rfl
    _ = item.associations kind name := by rw [hnames, Item.associations]

/-! ## The queries on a roster -/

theorem HasRoster.byName_eq (hroster : HasRoster p roster) (name : String) :
    p.byName name = roster.filter fun item => item.name = name := by
  have hlookup : ∀ item ∈ roster.filter fun item => item.name = name,
      p.item? item.handle.index = some item := by
    intro item hitem
    exact (hroster.mem_iff item).1 (List.mem_of_mem_filter hitem)
  rw [byName, hroster.names_eq, List.filterMap_map, Function.comp_def,
    List.filterMap_congr hlookup]
  exact List.filterMap_some

theorem HasRoster.byCapability_eq (hroster : HasRoster p roster) (kind : DepKind)
    (name : String) :
    p.byCapability kind name = roster.flatMap fun item => item.associations kind name := by
  rw [byCapability, hroster.caps_eq, List.filterMap_flatMap]
  refine List.flatMap_congr fun item hitem => ?_
  exact filterMap_refs ((hroster.mem_iff item).1 hitem) kind name

/-! ## Selection -/

theorem select_fst {τ : Type} (p : Pool) (f : Filter τ Item) :
    (p.select f).1 = (p.items.filter fun item => (f item).accepted).map Item.handle := by
  rw [← Filter.sift_fst]
  rfl

theorem select_named {τ : Type} (p : Pool) (name : String) :
    (p.select (Filter.named name : Filter τ Item)).1 =
      (p.items.filter fun item => item.name = name).map Item.handle :=
  select_fst p _

theorem select_pairwise_index {τ : Type} (p : Pool) (f : Filter τ Item) :
    (p.select f).1.Pairwise fun a b => a.index < b.index := by
  rw [select_fst, List.pairwise_map]
  exact (items_pairwise_index p).filter _

/-! ## Queries and scans -/

theorem HasRoster.answersByScan (hroster : HasRoster p roster) : AnswersByScan p roster where
  perm_items := hroster.perm_items
  byName_eq := hroster.byName_eq
  byCapability_eq := hroster.byCapability_eq
  byName_perm_select name := by
    rw [hroster.byName_eq, select_named]
    exact (hroster.perm_items.filter _).map _
  select_ascending f := select_pairwise_index p f

/-- **Indexed queries equal the full scan.**  In every pool that a run leads to, the queries by name
and by capability give what a scan of the live items gives.  The scan follows the order of
insertion: the order of the answered handles and, while the counter does not run over, the order of
generations. -/
theorem exists_scan_after (config : PoolConfig) (ops : List Op) :
    ∃ live, AnswersByScan ((empty config).after ops) live ∧
      (live.map Item.handle).Sublist ((empty config).issued ops) ∧
      (turnover ops < UInt64.size →
        live.Pairwise fun a b => a.handle.generation < b.handle.generation) := by
  obtain ⟨roster, hroster, hissued, hchron⟩ := exists_roster_after config ops
  refine ⟨roster, hroster.answersByScan, hissued, ?_⟩
  intro hturnover
  exact (hchron hturnover).ascending

end Pool

/-! ## What satisfies a requirement -/

/-- Capabilities of different names never match. -/
theorem Capability.name_eq_of_satisfiedBy {required provided : Capability}
    (hyes : required.satisfiedBy provided = .yes) : required.name = provided.name := by
  unfold satisfiedBy at hyes
  split at hyes
  · assumption
  · cases hyes

/-- The associations of an item with the capabilities that it provides and that settle the
requirement, each matched on its own. -/
def Item.settling (item : Item) (required : Capability) : List Association :=
  ((item.unit.deps .provides).filter fun cap => required.satisfiedBy cap = .yes).map
    fun cap => ⟨cap, .provides, item⟩

/-- A capability that settles the requirement has its name, so the others need not be looked at. -/
theorem Item.settling_eq (item : Item) (required : Capability) :
    item.settling required =
      (item.associations .provides required.name).filter
        fun a => (required.satisfiedBy a.capability).isYes := by
  rw [settling, associations, List.filter_map, List.filter_filter]
  congr 1
  refine List.filter_congr fun cap _ => ?_
  by_cases hyes : required.satisfiedBy cap = .yes
  · have hname := Capability.name_eq_of_satisfiedBy hyes
    simp [hyes, hname, Outcome.isYes]
  · simp [hyes, Outcome.isYes]

namespace Pool

variable {p : Pool} {roster : List Item}

theorem HasRoster.satisfying_eq (hroster : HasRoster p roster) (required : Capability) :
    p.satisfying required = roster.flatMap fun item => item.settling required := by
  rw [satisfying, providers, hroster.byCapability_eq, List.filter_flatMap]
  exact List.flatMap_congr fun item _ => (item.settling_eq required).symm

theorem mem_settling_iff {item : Item} {required : Capability} {a : Association} :
    a ∈ item.settling required ↔ a.capability ∈ item.unit.deps .provides ∧
      required.satisfiedBy a.capability = .yes ∧ a.kind = .provides ∧ a.item = item := by
  obtain ⟨cap, kind, owner⟩ := a
  simp only [Item.settling, List.mem_map, List.mem_filter, decide_eq_true_eq, Association.mk.injEq]
  constructor
  · rintro ⟨_, ⟨hcap, hyes⟩, rfl, rfl, rfl⟩
    exact ⟨hcap, hyes, rfl, rfl⟩
  · rintro ⟨hcap, hyes, rfl, rfl⟩
    exact ⟨cap, ⟨hcap, hyes⟩, rfl, rfl, rfl⟩

/-- **What satisfies a requirement is what matching everything finds.**  In every pool that a run
leads to, the query gives one association for each position at which an item provides a capability
that settles the requirement, whatever the names.  No association whose match is open or negative is
among them, and each of them leads to its item. -/
theorem satisfying_perm_scan (config : PoolConfig) (ops : List Op) (required : Capability) :
    (((empty config).after ops).satisfying required).Perm
        (((empty config).after ops).items.flatMap fun item =>
          ((item.unit.deps .provides).filter fun cap => required.satisfiedBy cap = .yes).map
            fun cap => ⟨cap, .provides, item⟩) ∧
      ∀ a ∈ ((empty config).after ops).satisfying required,
        required.satisfiedBy a.capability = .yes ∧
          ((empty config).after ops).get a.item.handle = .ok a.item := by
  obtain ⟨roster, hroster, -, -⟩ := exists_roster_after config ops
  have hsatisfying := hroster.satisfying_eq required
  constructor
  · rw [hsatisfying]
    exact hroster.perm_items.flatMap_right fun item => item.settling required
  · intro a ha
    rw [hsatisfying, List.mem_flatMap] at ha
    obtain ⟨item, hitem, hsettling⟩ := ha
    obtain ⟨-, hyes, -, rfl⟩ := mem_settling_iff.1 hsettling
    exact ⟨hyes, get_eq_ok_iff.2 ⟨(hroster.mem_iff a.item).1 hitem, rfl⟩⟩

end Pool

end PackagePool
