import PackagePool.Proofs.Pool.IndexedQueries

/-!
# Pools that differ in the names of their handles

Generations tell handles apart and have no other meaning.  So two pools with the same items, in the
same slots and in the same order of insertion, answer alike even if the handles of one are those of
the other under other generations.  `Pool.Echoes` says of all queries that one pool answers as the
other one does, up to a renaming of handles.

The main result, `echoes_of_hasRoster`, says that a pool echoes another one if its roster is the
renamed roster of the other.  The free list, the number of slots and the counter do not matter.
-/

namespace PackagePool

/-! ## Renamed handles in values -/

/-- The same unit with the same status under another handle. -/
def Item.rename (f : Handle → Handle) (item : Item) : Item :=
  { item with handle := f item.handle }

/-- The same capability of the renamed item. -/
def Association.rename (f : Handle → Handle) (a : Association) : Association :=
  { a with item := a.item.rename f }

/-- Only the refusal of a stale handle shows a handle. -/
def PoolError.rename (f : Handle → Handle) : PoolError → PoolError
  | stale h => .stale (f h)
  | lockedItem u => .lockedItem u
  | status cause => .status cause

namespace Pool

/-- The same operation through the renamed handle. -/
def Op.rename (f : Handle → Handle) : Op → Op
  | insert u installed => .insert u installed
  | remove h => .remove (f h)
  | setTransact h transact causer => .setTransact (f h) transact causer
  | forceTransact h transact => .forceTransact (f h) transact
  | setLock h locked => .setLock (f h) locked
  | changeStatus h change => .changeStatus (f h) change

/-- The same answer with the renamed handle. -/
def Response.rename (f : Handle → Handle) : Response → Response
  | inserted h => .inserted (f h)
  | removed u => .removed u
  | changed => .changed
  | failed cause => .failed (cause.rename f)

variable {f : Handle → Handle} {op : Op} {h : Handle}

theorem Op.handle?_rename (hhandle : op.handle? = some h) : (op.rename f).handle? = some (f h) := by
  cases op with
  | insert => cases hhandle
  | remove => exact congrArg (Option.map f) hhandle
  | setTransact => exact congrArg (Option.map f) hhandle
  | forceTransact => exact congrArg (Option.map f) hhandle
  | setLock => exact congrArg (Option.map f) hhandle
  | changeStatus => exact congrArg (Option.map f) hhandle

@[simp] theorem Op.change?_rename (f : Handle → Handle) (op : Op) :
    (op.rename f).change? = op.change? := by
  cases op <;> rfl

@[simp] theorem Op.isTurnover_rename (f : Handle → Handle) (op : Op) :
    (op.rename f).isTurnover = op.isTurnover := by
  cases op <;> rfl

@[simp] theorem Op.refusal_rename (f : Handle → Handle) (op : Op) (u : PackageUnit)
    (cause : StatusError) : (op.rename f).refusal u cause = (op.refusal u cause).rename f := by
  cases op <;> rfl

/-! ## Queries under a renaming -/

/-- `q` answers every query as `p` does, with the handles of `p` renamed by `f`. -/
structure Echoes (f : Handle → Handle) (p q : Pool) : Prop where
  size_eq : q.size = p.size
  items_eq : q.items = p.items.map (Item.rename f)
  sorted_eq : q.sorted = p.sorted.map (Item.rename f)
  byName_eq : ∀ name, q.byName name = (p.byName name).map (Item.rename f)
  byCapability_eq : ∀ kind name,
    q.byCapability kind name = (p.byCapability kind name).map (Association.rename f)
  satisfying_eq : ∀ required,
    q.satisfying required = (p.satisfying required).map (Association.rename f)
  /-- A filter is asked about the renamed items.  One that does not look at handles cannot tell. -/
  select_eq : ∀ {τ : Type} (g : Filter τ Item), q.select g =
    ((p.select (g.comap (Item.rename f))).1.map f, (p.select (g.comap (Item.rename f))).2)
  get_eq : ∀ h, q.get (f h) = ((p.get h).map (Item.rename f)).mapError (PoolError.rename f)
  getStatus_eq : ∀ h, q.getStatus (f h) = (p.getStatus h).mapError (PoolError.rename f)

end Pool

theorem Filter.sift_map {τ α β : Type} (g : Filter τ β) (aspect : α → β) (xs : List α) :
    g.sift (xs.map aspect) =
      (((g.comap aspect).sift xs).1.map aspect, ((g.comap aspect).sift xs).2) := by
  refine Prod.ext ?_ ?_
  · rw [sift_fst, sift_fst, List.filter_map]
    rfl
  · rw [sift_snd, sift_snd, List.flatMap_map]
    rfl

theorem Item.associations_rename (f : Handle → Handle) (item : Item) (kind : DepKind)
    (name : String) :
    (item.rename f).associations kind name =
      (item.associations kind name).map (Association.rename f) := by
  rw [associations, associations, List.map_map]
  rfl

theorem Item.settling_rename (f : Handle → Handle) (item : Item) (required : Capability) :
    (item.rename f).settling required = (item.settling required).map (Association.rename f) := by
  rw [settling, settling, List.map_map]
  rfl

namespace Pool

variable {f : Handle → Handle} {p q : Pool} {roster : List Item} {h : Handle} {slot : Slot}
  (hindex : ∀ h, (f h).index = h.index) (hinj : Function.Injective f)
  (hp : HasRoster p roster) (hq : HasRoster q (roster.map (Item.rename f)))

include hindex hp hq

theorem item?_of_renamed (i : Nat) : q.item? i = (p.item? i).map (Item.rename f) := by
  cases hitem : p.item? i with
  | some item =>
    obtain ⟨-, rfl⟩ := item?_eq_some_iff.1 hitem
    have hmem := List.mem_map_of_mem (f := Item.rename f) ((hp.mem_iff item).2 hitem)
    have hrenamed := (hq.mem_iff _).1 hmem
    rw [Item.rename, hindex] at hrenamed
    exact hrenamed
  | none =>
    cases hother : q.item? i with
    | none => rfl
    | some other =>
      obtain ⟨-, hi⟩ := item?_eq_some_iff.1 hother
      obtain ⟨item, hin, rfl⟩ := List.mem_map.1 ((hq.mem_iff other).2 (by rw [hi, hother]))
      have hsome := (hp.mem_iff item).1 hin
      have hsame : item.handle.index = i := (hindex item.handle).symm.trans hi
      rw [hsame, hitem] at hsome
      cases hsome

theorem slot?_of_renamed (i : Nat) : q.slot? i = (p.slot? i).map fun slot =>
    { slot with generation := (f ⟨i, slot.generation⟩).generation } := by
  have hitem := item?_of_renamed hindex hp hq i
  cases hslot : p.slot? i with
  | none =>
    rw [item?_eq_none_iff.2 hslot] at hitem
    exact item?_eq_none_iff.1 hitem
  | some slot =>
    have hfound : p.item? i = some ⟨⟨i, slot.generation⟩, slot.unit, slot.status⟩ :=
      item?_eq_some_iff.2 ⟨hslot, rfl⟩
    rw [hfound] at hitem
    exact (item?_eq_some_iff.1 hitem).1

theorem find?_of_renamed (hfind : p.find? h = some slot) :
    q.find? (f h) = some { slot with generation := (f h).generation } := by
  obtain ⟨hslot, hgeneration⟩ := find?_eq_some_iff.1 hfind
  refine find?_eq_some_iff.2 ⟨?_, rfl⟩
  rw [hindex, slot?_of_renamed hindex hp hq, hslot, Option.map_some, hgeneration]

include hinj in
theorem find?_of_renamed_of_none (hfind : p.find? h = none) : q.find? (f h) = none := by
  rw [find?_eq_none_iff] at hfind ⊢
  intro other hother
  rw [hindex, item?_of_renamed hindex hp hq, Option.map_eq_some_iff] at hother
  obtain ⟨item, hitem, rfl⟩ := hother
  exact fun heq => hfind item hitem (hinj heq)

theorem findDuplicate?_of_renamed (u : PackageUnit) (installed : Bool) :
    q.findDuplicate? u installed = (p.findDuplicate? u installed).map f := by
  have hnames : q.nameIndex.entries u.name = p.nameIndex.entries u.name := by
    rw [hq.names_eq, hp.names_eq, List.filter_map, List.map_map]
    exact List.map_congr_left fun item _ => hindex item.handle
  rw [findDuplicate?, findDuplicate?, hnames, List.map_findSome?]
  refine congrArg (fun look => (p.nameIndex.entries u.name).findSome? look) (funext fun i => ?_)
  rw [Function.comp_apply, slot?_of_renamed hindex hp hq]
  cases p.slot? i with
  | none => rfl
  | some slot =>
    have hhandle : (⟨i, (f ⟨i, slot.generation⟩).generation⟩ : Handle) = f ⟨i, slot.generation⟩ :=
      congrArg (fun index => Handle.mk index _) (hindex ⟨i, slot.generation⟩).symm
    have hsame :
        ({ slot with generation := (f ⟨i, slot.generation⟩).generation } : Slot).isDuplicate
          u installed = slot.isDuplicate u installed := rfl
    rw [Option.map_some, Option.bind_some, Option.bind_some, hsame, hhandle]
    by_cases hduplicate : slot.isDuplicate u installed = true
    · rw [if_pos hduplicate, if_pos hduplicate]
      rfl
    · rw [if_neg hduplicate, if_neg hduplicate]
      rfl

theorem items_of_renamed : q.items = p.items.map (Item.rename f) := by
  let n := max q.slots.size p.slots.size
  calc q.items = (List.range n).filterMap q.item? :=
        (filterMap_range_of_le q (Nat.le_max_left _ _)).symm
    _ = (List.range n).filterMap fun i => (p.item? i).map (Item.rename f) :=
        List.filterMap_congr fun i _ => item?_of_renamed hindex hp hq i
    _ = ((List.range n).filterMap p.item?).map (Item.rename f) := List.map_filterMap.symm
    _ = p.items.map (Item.rename f) := by
        rw [filterMap_range_of_le p (Nat.le_max_right _ _)]

include hinj in
theorem get_of_renamed (h : Handle) :
    q.get (f h) = ((p.get h).map (Item.rename f)).mapError (PoolError.rename f) := by
  cases hfind : p.find? h with
  | none =>
    rw [get, get, check_of_not_find? hfind,
      check_of_not_find? (find?_of_renamed_of_none hindex hinj hp hq hfind)]
    rfl
  | some slot =>
    rw [get, get, check_of_find? hfind, check_of_find? (find?_of_renamed hindex hp hq hfind)]
    rfl

include hinj in
theorem getStatus_of_renamed (h : Handle) :
    q.getStatus (f h) = (p.getStatus h).mapError (PoolError.rename f) := by
  cases hfind : p.find? h with
  | none =>
    rw [getStatus, getStatus, check_of_not_find? hfind,
      check_of_not_find? (find?_of_renamed_of_none hindex hinj hp hq hfind)]
    rfl
  | some slot =>
    rw [getStatus, getStatus, check_of_find? hfind,
      check_of_find? (find?_of_renamed hindex hp hq hfind)]
    rfl

include hinj in
/-- **A pool whose roster is renamed answers every query as before**, up to the names of handles. -/
theorem echoes_of_hasRoster : Echoes f p q where
  size_eq := by
    rw [size, size, hq.live_eq, hp.live_eq, List.length_map]
  items_eq := items_of_renamed hindex hp hq
  sorted_eq := by
    rw [sorted, sorted, items_of_renamed hindex hp hq]
    refine (List.map_mergeSort (f := Item.rename f) ?_).symm
    exact fun _ _ _ _ => rfl
  byName_eq name := by
    rw [hq.byName_eq, hp.byName_eq, List.filter_map]
    rfl
  byCapability_eq kind name := by
    rw [hq.byCapability_eq, hp.byCapability_eq, List.flatMap_map, List.map_flatMap]
    exact List.flatMap_congr fun item _ => item.associations_rename f kind name
  satisfying_eq required := by
    rw [hq.satisfying_eq, hp.satisfying_eq, List.flatMap_map, List.map_flatMap]
    exact List.flatMap_congr fun item _ => item.settling_rename f required
  select_eq g := by
    simp only [select, items_of_renamed hindex hp hq, Filter.sift_map, List.map_map]
    rfl
  get_eq := get_of_renamed hindex hinj hp hq
  getStatus_eq := getStatus_of_renamed hindex hinj hp hq

end Pool

end PackagePool
