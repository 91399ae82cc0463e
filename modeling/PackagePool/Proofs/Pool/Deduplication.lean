import PackagePool.Proofs.Pool.Handles
import PackagePool.Proofs.Resolvable.Order

/-!
# Duplicates

An insertion is superfluous if some item has the same identity, the same origin and the same
installed facet: the item *anticipates* the unit.  Identities compare as editions do, so the two
units may differ in their parts.  The item is looked for through the name index only.

The main result, `deduplicates_after`, says for every pool that a run leads to that no item
anticipates another one, that a superfluous insertion is answered with the one item that anticipates
it and changes nothing, and that any other insertion adds exactly one item.  Two facts carry it: the
name index leads to every item that could anticipate a unit
(`HasRoster.findDuplicate?_eq_none_iff`), and no change of a status touches the installed facet
(`StatusChange.installed_of_apply`).
-/

namespace PackagePool

/-! ## Items that make an insertion superfluous -/

/-- The item has the identity and the origin of a unit, and its installed facet is `installed`. -/
structure Item.Anticipates (item : Item) (u : PackageUnit) (installed : Bool) : Prop where
  resolvable_eq : (item.unit.resolvable == u.resolvable) = true
  source_eq : item.unit.source = u.source
  installed_eq : item.status.installed = installed

theorem Item.Anticipates.symm {a b : Item} (h : a.Anticipates b.unit b.status.installed) :
    b.Anticipates a.unit a.status.installed :=
  ⟨BEq.symm h.resolvable_eq, h.source_eq.symm, h.installed_eq.symm⟩

/-- Two items that anticipate one unit anticipate each other. -/
theorem Item.Anticipates.of_common {a b : Item} {u : PackageUnit} {installed : Bool}
    (ha : a.Anticipates u installed) (hb : b.Anticipates u installed) :
    a.Anticipates b.unit b.status.installed :=
  ⟨BEq.trans ha.resolvable_eq (BEq.symm hb.resolvable_eq), ha.source_eq.trans hb.source_eq.symm,
    ha.installed_eq.trans hb.installed_eq.symm⟩

theorem Item.Anticipates.name_eq {item : Item} {u : PackageUnit} {installed : Bool}
    (h : item.Anticipates u installed) : item.name = u.name :=
  (Resolvable.beq_iff.1 h.resolvable_eq).2.1

theorem Slot.isDuplicate_iff {slot : Slot} {u : PackageUnit} {installed : Bool} {h : Handle} :
    slot.isDuplicate u installed = true ↔
      Item.Anticipates ⟨h, slot.unit, slot.status⟩ u installed := by
  simp only [isDuplicate, Bool.and_eq_true, beq_iff_eq]
  constructor
  · rintro ⟨⟨hresolvable, hsource⟩, hinstalled⟩
    exact ⟨hresolvable, hsource, hinstalled⟩
  · rintro ⟨hresolvable, hsource, hinstalled⟩
    exact ⟨⟨hresolvable, hsource⟩, hinstalled⟩

/-! ## The installed facet -/

theorem StatusChange.installed_of_apply {change : StatusChange} {old new : Status}
    (h : change.apply old = .ok new) : new.installed = old.installed := by
  cases change with
  | setTransact transact causer =>
    simp only [apply, Status.setTransact] at h
    split at h
    · obtain rfl := Except.ok.inj h
      rfl
    · split at h
      · cases h
      · obtain rfl := Except.ok.inj h
        rfl
  | forceTransact transact =>
    obtain rfl := Except.ok.inj h
    rfl
  | setLock locked =>
    obtain rfl := Except.ok.inj h
    rfl

namespace Pool

variable {p q : Pool} {roster : List Item} {op : Op} {r : Response} {u : PackageUnit}
  {installed : Bool}

/-! ## Looking for a duplicate -/

/-- The search for a duplicate misses none: an item that anticipates a unit has its name. -/
theorem HasRoster.findDuplicate?_eq_none_iff (hroster : HasRoster p roster) :
    p.findDuplicate? u installed = none ↔ ∀ item ∈ roster, ¬ item.Anticipates u installed := by
  rw [findDuplicate?, hroster.names_eq, List.findSome?_eq_none_iff]
  constructor
  · intro hnone item hitem hanticipates
    have hindex : item.handle.index ∈ (roster.filter fun item => item.name = u.name).map
        fun item => item.handle.index :=
      List.mem_map_of_mem (List.mem_filter.2 ⟨hitem, decide_eq_true hanticipates.name_eq⟩)
    have hslot := (item?_eq_some_iff.1 ((hroster.mem_iff item).1 hitem)).1
    have hmissed := hnone _ hindex
    rw [hslot, Option.bind_some, if_pos (Slot.isDuplicate_iff.2 hanticipates)] at hmissed
    cases hmissed
  · intro hnone index hindex
    obtain ⟨item, hitem, rfl⟩ := List.mem_map.1 hindex
    have hmem := List.mem_of_mem_filter hitem
    have hslot := (item?_eq_some_iff.1 ((hroster.mem_iff item).1 hmem)).1
    rw [hslot, Option.bind_some, if_neg]
    intro hduplicate
    exact hnone item hmem (Slot.isDuplicate_iff.1 hduplicate)

theorem HasRoster.exists_of_findDuplicate? (hroster : HasRoster p roster) {h : Handle}
    (hfound : p.findDuplicate? u installed = some h) :
    ∃ item ∈ roster, item.handle = h ∧ item.Anticipates u installed := by
  obtain ⟨slot, hfind, hduplicate⟩ := find?_of_findDuplicate? hfound
  exact ⟨_, hroster.mem_of_find? hfind, rfl, Slot.isDuplicate_iff.1 hduplicate⟩

/-! ## No item anticipates another -/

/-- No item of the list anticipates another one. -/
def NoDuplicates (items : List Item) : Prop :=
  ∀ a ∈ items, ∀ b ∈ items, a.Anticipates b.unit b.status.installed → a = b

theorem NoDuplicates.subset {items others : List Item} (hdistinct : NoDuplicates items)
    (hsubset : others ⊆ items) : NoDuplicates others :=
  fun a ha b hb => hdistinct a (hsubset ha) b (hsubset hb)

theorem NoDuplicates.place (hdistinct : NoDuplicates roster)
    (hnone : ∀ item ∈ roster, ¬ item.Anticipates u installed) :
    NoDuplicates (roster ++ [p.arrival u installed]) := by
  have hforeign : ∀ item ∈ roster, ¬ item.Anticipates (p.arrival u installed).unit
      (p.arrival u installed).status.installed := hnone
  intro a ha b hb hanticipates
  rw [List.mem_append, List.mem_singleton] at ha hb
  rcases ha with ha | rfl
  · rcases hb with hb | rfl
    · exact hdistinct a ha b hb hanticipates
    · exact absurd hanticipates (hforeign a ha)
  · rcases hb with hb | rfl
    · exact absurd hanticipates.symm (hforeign b hb)
    · rfl

theorem NoDuplicates.restatus (hdistinct : NoDuplicates roster) {index : Nat} {status : Status}
    (hinstalled : ∀ item ∈ roster,
      (item.restatus index status).status.installed = item.status.installed) :
    NoDuplicates (roster.map (Item.restatus index status)) := by
  intro a ha b hb hanticipates
  rw [List.mem_map] at ha hb
  obtain ⟨a, ha, rfl⟩ := ha
  obtain ⟨b, hb, rfl⟩ := hb
  obtain ⟨hresolvable, hsource, hfacet⟩ := hanticipates
  rw [Item.restatus_unit, Item.restatus_unit] at hresolvable hsource
  rw [hinstalled a ha, hinstalled b hb] at hfacet
  rw [hdistinct a ha b hb ⟨hresolvable, hsource, hfacet⟩]

/-- A permitted change of the status in a slot leaves the installed facet of every item alone. -/
theorem HasRoster.installed_restatus (hroster : HasRoster p roster) {h : Handle} {slot : Slot}
    {change : StatusChange} {status : Status} (hfind : p.find? h = some slot)
    (happly : change.apply slot.status = .ok status) {item : Item} (hitem : item ∈ roster) :
    (item.restatus h.index status).status.installed = item.status.installed := by
  unfold Item.restatus
  split
  · rename_i hindex
    rw [hroster.eq_of_index hitem (hroster.mem_of_find? hfind) hindex]
    exact StatusChange.installed_of_apply happly
  · rfl

theorem NoDuplicates.transition (hdistinct : NoDuplicates p.items) (hroster : HasRoster p roster)
    (t : Transition p op q r) : NoDuplicates q.items := by
  have hlisted : NoDuplicates roster := hdistinct.subset hroster.perm_items.subset
  cases t with
  | duplicate => exact hdistinct
  | @placed u installed hnone =>
    have hplaced := hlisted.place (p := p) (hroster.findDuplicate?_eq_none_iff.1 hnone)
    exact hplaced.subset (hroster.place u installed).perm_items.symm.subset
  | @vacated h _ hfind =>
    have hkept : NoDuplicates (roster.filter fun item => item.handle.index ≠ h.index) :=
      hlisted.subset (List.filter_subset_self roster)
    exact hkept.subset (hroster.vacate hfind).perm_items.symm.subset
  | @rewritten _ h _ slot status _ _ hfind happly =>
    have hrewritten := hlisted.restatus fun item hitem =>
      hroster.installed_restatus hfind happly hitem
    have hnext := hroster.writeStatus (slot?_of_find? hfind) status
    exact hrewritten.subset hnext.perm_items.symm.subset
  | refused => exact hdistinct
  | stale => exact hdistinct

theorem NoDuplicates.after (hdistinct : NoDuplicates p.items) (hroster : HasRoster p roster)
    (ops : List Op) : NoDuplicates (p.after ops).items := by
  induction ops generalizing p roster with
  | nil => exact hdistinct
  | cons op ops ih =>
    have hstep := transition_step p op
    obtain ⟨next, hnext, -⟩ := hroster.transition hstep
    rw [after_cons]
    exact ih (hdistinct.transition hroster hstep) hnext

/-! ## What an insertion does -/

theorem HasRoster.insert_of_anticipates (hroster : HasRoster p roster)
    (hdistinct : NoDuplicates roster) {item : Item} (hitem : item ∈ roster)
    (hanticipates : item.Anticipates u installed) :
    p.insert u installed = (p, item.handle) := by
  cases hfound : p.findDuplicate? u installed with
  | none => exact absurd hanticipates (hroster.findDuplicate?_eq_none_iff.1 hfound item hitem)
  | some h =>
    obtain ⟨other, hother, rfl, hsame⟩ := hroster.exists_of_findDuplicate? hfound
    have heq : item = other := hdistinct item hitem other hother (hanticipates.of_common hsame)
    rw [heq]
    exact insert_of_findDuplicate? hfound

theorem HasRoster.perm_items_place (hroster : HasRoster p roster) (u : PackageUnit)
    (installed : Bool) :
    (p.place u installed).1.items.Perm (p.arrival u installed :: p.items) := by
  have hplaced := (hroster.place u installed).perm_items.symm
  have hfront : (roster ++ [p.arrival u installed]).Perm (p.arrival u installed :: roster) :=
    List.perm_append_singleton _ _
  exact (hplaced.trans hfront).trans (hroster.perm_items.cons _)

/-- A pool, created with `config`, holds nothing twice, and insertions into it keep to that. -/
structure Deduplicates (config : PoolConfig) (p : Pool) : Prop where
  /-- No two items agree in identity, origin and installed facet. -/
  distinct : ∀ a ∈ p.items, ∀ b ∈ p.items, a.Anticipates b.unit b.status.installed → a = b
  /-- An item that anticipates the unit is the answer, and the whole pool stays as it is. -/
  insert_known : ∀ u installed, ∀ item ∈ p.items, item.Anticipates u installed →
    p.insert u installed = (p, item.handle)
  /-- A unit that no item anticipates becomes exactly one more item, under the handle that is
  answered and with the first status that the lock list gives it. -/
  insert_new : ∀ u installed, (∀ item ∈ p.items, ¬ item.Anticipates u installed) →
    (p.insert u installed).1.items.Perm
      (⟨(p.insert u installed).2, u, .initial installed (config.isLocked u.resolvable)⟩ :: p.items)

/-- **Every run leaves a pool that holds nothing twice**, whatever was inserted, removed, reused and
changed in it. -/
theorem deduplicates_after (config : PoolConfig) (ops : List Op) :
    Deduplicates config ((empty config).after ops) := by
  obtain ⟨roster, hroster, -, -⟩ := exists_roster_after config ops
  have hdistinct : NoDuplicates ((empty config).after ops).items :=
    NoDuplicates.after (by simp [NoDuplicates, empty, items]) (hasRoster_empty config) ops
  constructor
  case distinct => exact hdistinct
  case insert_known =>
    intro u installed item hitem hanticipates
    exact hroster.insert_of_anticipates (hdistinct.subset hroster.perm_items.subset)
      (hroster.perm_items.mem_iff.2 hitem) hanticipates
  case insert_new =>
    intro u installed hnone
    have hforeign : ∀ item ∈ roster, ¬ item.Anticipates u installed := fun item hitem =>
      hnone item (hroster.perm_items.mem_iff.1 hitem)
    have hconfig : ((empty config).after ops).config = config := config_after _ ops
    rw [insert_of_not_findDuplicate? (hroster.findDuplicate?_eq_none_iff.2 hforeign)]
    have hperm := hroster.perm_items_place u installed
    rw [arrival, hconfig] at hperm
    exact hperm

end Pool

end PackagePool
