import PackagePool.Proofs.Filter.ShortCircuit
import PackagePool.Proofs.Pool.Selection

/-!
# Filtering associations

A query by capability joins the items of a pool with the capabilities that they declare, and an
association has the attributes of its item.  So one expression of item tests can be asked in two
places: about the associations, as the join gives them in the order of insertion, or about the
items, as `Pool.select` goes through the slots.

The main result, `sift_byCapability_eq`, says that it does not matter which.  Asking about the
associations leaves those whose item is selected, each as often as it was in the join and in its
order; selecting the items first and joining these gives the same list.
-/

namespace PackagePool

namespace Filter

variable {τ α β ι : Type}

/-- Only the leaves look at a value, so an expression over leaves that look at an aspect looks at
that aspect. -/
theorem Expr.toFilter_comap (leaf : ι → Filter τ α) (aspect : β → α) (f : Expr ι) :
    (f.toFilter fun i => (leaf i).comap aspect) = (f.toFilter leaf).comap aspect := by
  induction f with
  | everything => rfl
  | nothing => rfl
  | leaf i => rfl
  | chain f g ihf ihg =>
    rw [toFilter, ihf, ihg]
    rfl
  | either f g ihf ihg =>
    rw [toFilter, ihf, ihg]
    rfl
  | negate f ih =>
    rw [toFilter, ih]
    rfl

end Filter

/-! ## Tests of items and of associations -/

namespace ItemTest

/-- The filter of a test takes no notes. -/
def filter {τ α : Type} [Identified α] [HasStatus α] [HasSource α] (test : ItemTest) :
    Filter τ α :=
  .ofPredicate fun a => test.holds a

/-- To test an association is to test its item. -/
theorem filter_association {τ : Type} (test : ItemTest) :
    (test.filter : Filter τ Association) = test.filter.comap Association.item := by
  cases test
  case identity test => rfl
  case status test => rfl
  case source label => rfl

theorem toFilter_association {τ : Type} (f : Filter.Expr ItemTest) :
    (f.toFilter filter : Filter τ Association) = (f.toFilter filter).comap Association.item :=
  calc f.toFilter filter
      = f.toFilter fun test => test.filter.comap Association.item :=
        congrArg (f.toFilter ·) (funext filter_association)
    _ = (f.toFilter filter).comap Association.item :=
        Filter.Expr.toFilter_comap filter Association.item f

end ItemTest

namespace Pool

variable {p : Pool} {τ : Type}

/-! ## Joining the selected items -/

/-- The item of an association is the item that its handle finds. -/
theorem get_item_of_mem_byCapability {kind : DepKind} {name : String} {a : Association}
    (ha : a ∈ p.byCapability kind name) : p.get a.item.handle = .ok a.item := by
  obtain ⟨ref, -, hlookup⟩ := List.mem_filterMap.1 ha
  obtain ⟨item, hitem, hposition⟩ := Option.bind_eq_some_iff.1 hlookup
  obtain ⟨capability, -, rfl⟩ := Option.map_eq_some_iff.1 hposition
  have hindex : item.handle.index = ref.slot := by
    obtain ⟨slot, -, rfl⟩ := Option.map_eq_some_iff.1 hitem
    rfl
  exact get_eq_ok_iff.2 ⟨hindex ▸ hitem, rfl⟩

/-- A filter on items leaves the associations whose item it selects. -/
theorem sift_comap_byCapability (p : Pool) (f : Filter τ Item) (kind : DepKind) (name : String) :
    ((f.comap Association.item).sift (p.byCapability kind name)).1 =
      (p.byCapability kind name).filter fun a => a.item.handle ∈ (p.select f).1 := by
  rw [Filter.sift_fst]
  refine List.filter_congr fun a ha => ?_
  rw [Bool.eq_iff_iff, decide_eq_true_iff,
    handle_mem_select_iff (get_item_of_mem_byCapability ha)]
  rfl

/-- A handle is selected exactly if it finds an item of which the formula of the tests is true. -/
theorem mem_select_toFilter_iff {f : Filter.Expr ItemTest} {h : Handle} :
    h ∈ (p.select (f.toFilter ItemTest.filter : Filter τ Item)).1 ↔
      ∃ item, p.get h = .ok item ∧ f.value (fun test => test.holds item) = true := by
  simp only [mem_select_iff, Filter.Expr.accepted_toFilter]
  rfl

theorem item_of_mem_associations {item : Item} {kind : DepKind} {name : String} {a : Association}
    (ha : a ∈ item.associations kind name) : a.item = item := by
  obtain ⟨capability, -, rfl⟩ := List.mem_map.1 ha
  rfl

/-- Of a join, a selection leaves the join with the selected items. -/
theorem filter_join (live : List Item) (kind : DepKind) (name : String) (selected : List Handle) :
    (live.flatMap fun item => item.associations kind name).filter
        (fun a => a.item.handle ∈ selected) =
      (live.filter fun item => item.handle ∈ selected).flatMap
        fun item => item.associations kind name := by
  refine filter_flatMap_of_forall (fun item a ha => ?_) live
  rw [item_of_mem_associations ha]

/-- **Filtering commutes with the join.**  In every pool that a run leads to, an expression of item
tests accepts exactly those associations of a query by capability whose item it selects, in the
order and as often as the query gives them.  It selects the items of which its formula is true.  The
query joins the live items in the order of insertion, and what is accepted is the join of the
selected ones. -/
theorem sift_byCapability_eq (config : PoolConfig) (ops : List Op) (f : Filter.Expr ItemTest)
    (kind : DepKind) (name : String) :
    let p := (empty config).after ops
    let onItems : Filter τ Item := f.toFilter ItemTest.filter
    let onAssociations : Filter τ Association := f.toFilter ItemTest.filter
    let joined := p.byCapability kind name
    let accepted := (onAssociations.sift joined).1
    let selected := (p.select onItems).1
    accepted = joined.filter (fun a => a.item.handle ∈ selected) ∧
      (∀ h, h ∈ selected ↔
        ∃ item, p.get h = .ok item ∧ f.value (fun test => test.holds item) = true) ∧
      ∃ live : List Item, live.Perm p.items ∧
        joined = (live.flatMap fun item => item.associations kind name) ∧
        accepted = (live.filter fun item => item.handle ∈ selected).flatMap
          fun item => item.associations kind name := by
  intro p onItems onAssociations joined accepted selected
  have haccepted : accepted = joined.filter fun a => a.item.handle ∈ selected :=
    calc accepted
        = ((onItems.comap Association.item).sift joined).1 :=
          congrArg (fun g => (Filter.sift g joined).1) (ItemTest.toFilter_association f)
      _ = joined.filter fun a => a.item.handle ∈ selected :=
          sift_comap_byCapability p onItems kind name
  obtain ⟨live, hroster, -, -⟩ := exists_roster_after config ops
  have hjoined : joined = live.flatMap fun item => item.associations kind name :=
    hroster.byCapability_eq kind name
  refine ⟨haccepted, fun h => mem_select_toFilter_iff, live, hroster.perm_items, hjoined, ?_⟩
  calc accepted
      = joined.filter (fun a => a.item.handle ∈ selected) := haccepted
    _ = (live.flatMap fun item => item.associations kind name).filter
          (fun a => a.item.handle ∈ selected) := congrArg (List.filter _) hjoined
    _ = (live.filter fun item => item.handle ∈ selected).flatMap
          (fun item => item.associations kind name) := filter_join live kind name selected

/-- The name is provided twice by each of the two items, and one of the items is installed. -/
example :
    let p := (empty .default).after [.insert .shell false, .insert .shell true]
    let absent : Filter Empty Association := Filter.Expr.toFilter ItemTest.filter
      (.negate (.leaf (.status .installed)))
    (p.byCapability .provides "sh").map (·.item.handle) = [⟨0, 1⟩, ⟨0, 1⟩, ⟨1, 2⟩, ⟨1, 2⟩] ∧
      (absent.sift (p.byCapability .provides "sh")).1.map (·.item.handle) = [⟨0, 1⟩, ⟨0, 1⟩] := by
  decide +kernel

end Pool

end PackagePool
