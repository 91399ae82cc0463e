import Mathlib.Data.List.Nodup
import PackagePool.Proofs.Pool.Frame
import PackagePool.Proofs.Resolvable.Order

/-!
# The sorted items

`Pool.sorted` lists the items in the order of their resolvables.  That order does not tell equal
resolvables apart, and a pool may hold several items of one identity, from different origins or with
different installed facets.  Among them the order of the slots decides, so that the list is
determined completely.

`Pool.Arranges` says what is expected of such a list.  The main result, `sorted_iff_arranges`, says
that the sorted items are one such list and the only one.  That they are one rests on the order of
resolvables being total and transitive, and on the sort being stable; that there is no other rests
on comparing as equal being the same as being equal.
-/

namespace PackagePool

namespace Pool

/-- `l` lists the items of `p` in the order of their resolvables, and equal ones in slot order. -/
structure Arranges (p : Pool) (l : List Item) : Prop where
  perm_items : l.Perm p.items
  ordered : l.Pairwise fun a b => a.unit.resolvable.compare b.unit.resolvable ≠ .gt
  stable : l.Pairwise fun a b =>
    (a.unit.resolvable == b.unit.resolvable) = true → a.handle.index < b.handle.index

/-! ## Stability -/

/-- A stable sort leaves members that are tied with each other in their order. -/
theorem filter_mergeSort_of_tied {α : Type} {le : α → α → Bool}
    (htrans : ∀ a b c, le a b = true → le b c = true → le a c = true)
    (htotal : ∀ a b, (le a b || le b a) = true) {tied : α → Bool} {l : List α}
    (hle : (l.filter tied).Pairwise fun a b => le a b = true) :
    (l.mergeSort le).filter tied = l.filter tied := by
  have hperm : ((l.mergeSort le).filter tied).Perm (l.filter tied) :=
    (List.mergeSort_perm l le).filter tied
  have hkept : (l.filter tied).Sublist (l.mergeSort le) :=
    List.sublist_mergeSort htrans htotal hle List.filter_sublist
  have hsublist : (l.filter tied).Sublist ((l.mergeSort le).filter tied) := by
    simpa using hkept.filter tied
  exact (hsublist.eq_of_length hperm.length_eq.symm).symm

theorem sorted_pairwise (p : Pool) : p.sorted.Pairwise fun a b =>
    (a.unit.resolvable.compare b.unit.resolvable).isLE = true :=
  List.pairwise_mergeSort (fun _ _ _ => Std.TransCmp.isLE_trans)
    (fun _ _ => Resolvable.compare_total _ _) _

theorem perm_sorted (p : Pool) : p.sorted.Perm p.items :=
  List.mergeSort_perm _ _

/-- The items of one identity stand in the sorted list as they stand in the slots. -/
theorem filter_sorted_beq (p : Pool) (r : Resolvable) :
    (p.sorted.filter fun item => item.unit.resolvable == r) =
      p.items.filter fun item => item.unit.resolvable == r := by
  refine filter_mergeSort_of_tied (fun _ _ _ => Std.TransCmp.isLE_trans)
    (fun _ _ => Resolvable.compare_total _ _) ?_
  refine ((items_pairwise_index p).filter _).imp_of_mem fun {a b} ha hb _ => ?_
  have hsame : (a.unit.resolvable == b.unit.resolvable) = true :=
    BEq.trans (List.mem_filter.1 ha).2 (BEq.symm (List.mem_filter.1 hb).2)
  have htie : a.unit.resolvable.compare b.unit.resolvable = .eq :=
    Resolvable.beq_iff_compare.1 hsame
  exact Ordering.isLE_of_eq_eq htie

theorem sorted_stable (p : Pool) : p.sorted.Pairwise fun a b =>
    (a.unit.resolvable == b.unit.resolvable) = true → a.handle.index < b.handle.index := by
  refine List.pairwise_iff_forall_sublist.2 fun {a b} hpair hsame => ?_
  have htied := hpair.filter fun item => item.unit.resolvable == b.unit.resolvable
  rw [filter_sorted_beq] at htied
  have hslots : [a, b].Sublist p.items := by
    simpa [hsame] using htied.trans List.filter_sublist
  exact List.pairwise_iff_forall_sublist.1 (items_pairwise_index p) hslots

theorem arranges_sorted (p : Pool) : p.Arranges p.sorted where
  perm_items := perm_sorted p
  ordered := (sorted_pairwise p).imp Ordering.ne_gt_iff_isLE.2
  stable := sorted_stable p

/-! ## Uniqueness -/

variable {p : Pool} {l l' : List Item}

/-- The keys of an arrangement: of two items, the earlier has the smaller resolvable, or an equal
one and the lower slot. -/
theorem Arranges.pairwise_keys (hl : p.Arranges l) : l.Pairwise fun a b =>
    a.unit.resolvable.ComesBefore b.unit.resolvable ∨
      (a.unit.resolvable == b.unit.resolvable) = true ∧ a.handle.index < b.handle.index := by
  refine (hl.ordered.and hl.stable).imp ?_
  rintro a b ⟨hnotAfter, hstable⟩
  cases hcompare : a.unit.resolvable.compare b.unit.resolvable with
  | lt => exact .inl (Resolvable.compare_eq_lt_iff.1 hcompare)
  | eq =>
    have hsame := Resolvable.beq_iff_compare.2 hcompare
    exact .inr ⟨hsame, hstable hsame⟩
  | gt => exact absurd hcompare hnotAfter

theorem Arranges.unique (hl : p.Arranges l) (hl' : p.Arranges l') : l = l' := by
  have hperm : l.Perm l' := hl.perm_items.trans hl'.perm_items.symm
  refine hperm.eq_of_pairwise ?_ (hl.ordered.and hl.stable) (hl'.ordered.and hl'.stable)
  rintro a b - - ⟨hab, hstable⟩ ⟨hba, hstable'⟩
  have hcompare : a.unit.resolvable.compare b.unit.resolvable = .eq :=
    Std.OrientedCmp.isLE_antisymm (Ordering.ne_gt_iff_isLE.1 hab) (Ordering.ne_gt_iff_isLE.1 hba)
  have hsame := Resolvable.beq_iff_compare.2 hcompare
  have hlt := hstable hsame
  have hgt := hstable' (BEq.symm hsame)
  omega

/-- **The sorted items are the one stable arrangement.**  In every pool that a run leads to, a list
has all items of the pool, each as often as the slots do, in the order of their resolvables and
equal ones in slot order, exactly if it is the list of the sorted items.  That list has each item
that a handle finds once and nothing else; of two items in it, the earlier one comes first by name,
newest edition, architecture or kind, or is of the same identity and in a lower slot. -/
theorem sorted_iff_arranges (config : PoolConfig) (ops : List Op) :
    let p := (empty config).after ops
    (∀ l, p.Arranges l ↔ l = p.sorted) ∧
      p.sorted.Nodup ∧
      (∀ item, item ∈ p.sorted ↔ p.get item.handle = .ok item) ∧
      p.sorted.length = p.size ∧
      p.sorted.Pairwise fun a b =>
        a.unit.resolvable.ComesBefore b.unit.resolvable ∨
          (a.unit.resolvable == b.unit.resolvable) = true ∧ a.handle.index < b.handle.index := by
  intro p
  obtain ⟨roster, hroster, -, -⟩ := exists_roster_after config ops
  have harranges := arranges_sorted p
  refine ⟨fun l => ⟨fun hl => hl.unique harranges, fun heq => heq ▸ harranges⟩, ?_, ?_, ?_,
    harranges.pairwise_keys⟩
  · exact (perm_sorted p).nodup_iff.2 (nodup_items p)
  · intro item
    exact (perm_sorted p).mem_iff.trans mem_items_iff_get
  · rw [(perm_sorted p).length_eq, ← hroster.perm_items.length_eq, size, hroster.live_eq]

end Pool

end PackagePool
