import PackagePool.Proofs.Pool.Chronology

/-!
# Consistency of a pool

The free list, the count of live items, the name index and the capability index all repeat
information that is in the slots.  `Pool.Consistent` says, in terms of the slots alone, that none of
them has drifted: an entry that survived a removal would attach to whichever unit reuses the slot.

The main result, `consistent_after`, says that every run keeps them in step, through slot reuse,
stale handles, units that declare one capability name several times, and empty groups.  It reads
every field off the roster of the run.
-/

namespace PackagePool

namespace Pool

/-- The structures of a pool agree with its slots. -/
structure Consistent (p : Pool) : Prop where
  free_nodup : p.free.Nodup
  /-- The free list holds exactly the empty slots. -/
  mem_free_iff : ∀ index, index ∈ p.free ↔ index < p.slots.size ∧ p.slot? index = none
  live_eq : p.live = p.slots.countP Option.isSome
  names_nodup : ∀ name, (p.nameIndex.entries name).Nodup
  /-- Under a name stand exactly the slots whose unit has that name. -/
  mem_names_iff : ∀ name index, index ∈ p.nameIndex.entries name ↔
    ∃ slot, p.slot? index = some slot ∧ slot.unit.name = name
  names_tight : p.nameIndex.Tight
  caps_nodup : ∀ kind name, (p.capIndex.entries ⟨kind, name⟩).Nodup
  /-- Under a kind and a name stand exactly the places of the capabilities of that name that units
  in the slots declare under that kind. -/
  mem_caps_iff : ∀ kind name ref, ref ∈ p.capIndex.entries ⟨kind, name⟩ ↔
    ∃ slot cap, p.slot? ref.slot = some slot ∧
      (slot.unit.deps kind)[ref.position]? = some cap ∧ cap.name = name
  caps_tight : p.capIndex.Tight
  /-- No two slots have one generation. -/
  generation_inj : ∀ i j a b, p.slot? i = some a → p.slot? j = some b →
    a.generation = b.generation → i = j
  one_le_generation : ∀ index slot, p.slot? index = some slot → 1 ≤ slot.generation
  generation_le : ∀ index slot, p.slot? index = some slot → slot.generation ≤ p.generation

variable {p : Pool} {roster : List Item}

theorem HasRoster.mem_of_slot? (hroster : HasRoster p roster) {index : Nat} {slot : Slot}
    (hslot : p.slot? index = some slot) :
    ⟨⟨index, slot.generation⟩, slot.unit, slot.status⟩ ∈ roster :=
  (hroster.mem_iff _).2 (item?_eq_some_iff.2 ⟨hslot, rfl⟩)

theorem HasRoster.slot?_of_mem (hroster : HasRoster p roster) {item : Item}
    (hitem : item ∈ roster) :
    p.slot? item.handle.index = some ⟨item.unit, item.status, item.handle.generation⟩ :=
  (item?_eq_some_iff.1 ((hroster.mem_iff item).1 hitem)).1

theorem HasRoster.names_nodup (hroster : HasRoster p roster) (name : String) :
    (p.nameIndex.entries name).Nodup := by
  rw [hroster.names_eq]
  exact hroster.index_nodup.sublist (List.filter_sublist.map _)

theorem HasRoster.mem_names_iff (hroster : HasRoster p roster) (name : String) (index : Nat) :
    index ∈ p.nameIndex.entries name ↔
      ∃ slot, p.slot? index = some slot ∧ slot.unit.name = name := by
  rw [hroster.names_eq, List.mem_map]
  simp only [List.mem_filter, decide_eq_true_eq]
  constructor
  · rintro ⟨item, ⟨hitem, hname⟩, rfl⟩
    exact ⟨_, hroster.slot?_of_mem hitem, hname⟩
  · rintro ⟨slot, hslot, hname⟩
    exact ⟨_, ⟨hroster.mem_of_slot? hslot, hname⟩, rfl⟩

theorem HasRoster.caps_nodup (hroster : HasRoster p roster) (key : CapKey) :
    (p.capIndex.entries key).Nodup := by
  rw [hroster.caps_eq, List.nodup_flatMap]
  refine ⟨fun item _ => PackageUnit.nodup_refsUnder _ _ _, ?_⟩
  refine (List.pairwise_map.1 hroster.index_nodup).imp ?_
  intro a b hne ref ha hb
  rw [← PackageUnit.slot_of_mem_refsUnder ha, ← PackageUnit.slot_of_mem_refsUnder hb] at hne
  exact hne rfl

theorem HasRoster.mem_caps_iff (hroster : HasRoster p roster) (kind : DepKind) (name : String)
    (ref : CapRef) :
    ref ∈ p.capIndex.entries ⟨kind, name⟩ ↔
      ∃ slot cap, p.slot? ref.slot = some slot ∧
        (slot.unit.deps kind)[ref.position]? = some cap ∧ cap.name = name := by
  rw [hroster.caps_eq, List.mem_flatMap]
  simp only [Item.refs, PackageUnit.mem_refsUnder]
  constructor
  · rintro ⟨item, hitem, hslot, cap, hcap, hname⟩
    exact ⟨_, cap, by rw [hslot]; exact hroster.slot?_of_mem hitem, hcap, hname⟩
  · rintro ⟨slot, cap, hslot, hcap, hname⟩
    exact ⟨_, hroster.mem_of_slot? hslot, rfl, cap, hcap, hname⟩

/-- Along a chronological roster generations tell items apart. -/
theorem Chronological.eq_of_generation (hchron : Chronological p roster) {a b : Item}
    (ha : a ∈ roster) (hb : b ∈ roster) (hgeneration : a.handle.generation = b.handle.generation) :
    a = b := by
  have hnodup : (roster.map fun item => item.handle.generation).Nodup :=
    List.pairwise_map.2 (hchron.ascending.imp UInt64.ne_of_lt)
  exact List.inj_on_of_nodup_map hnodup ha hb hgeneration

theorem HasRoster.consistent (hroster : HasRoster p roster) (hchron : Chronological p roster) :
    Consistent p := by
  constructor
  case free_nodup => exact hroster.free_nodup
  case mem_free_iff =>
    intro index
    rw [hroster.mem_free_iff, item?_eq_none_iff]
  case live_eq => rw [hroster.live_eq, hroster.perm_items.length_eq, length_items]
  case names_nodup => exact hroster.names_nodup
  case mem_names_iff => exact hroster.mem_names_iff
  case names_tight => exact hroster.names_tight
  case caps_nodup => exact fun kind name => hroster.caps_nodup ⟨kind, name⟩
  case mem_caps_iff => exact hroster.mem_caps_iff
  case caps_tight => exact hroster.caps_tight
  case generation_inj =>
    intro i j a b ha hb hgeneration
    have hitem := hchron.eq_of_generation (hroster.mem_of_slot? ha) (hroster.mem_of_slot? hb)
      hgeneration
    exact congrArg (fun item => item.handle.index) hitem
  case one_le_generation =>
    intro index slot hslot
    exact hchron.one_le _ (hroster.mem_of_slot? hslot)
  case generation_le =>
    intro index slot hslot
    exact hchron.le_counter _ (hroster.mem_of_slot? hslot)

/-- **Every run leaves a consistent pool**, whatever the units and handles in it, as long as it has
fewer insertions and removals than there are generations. -/
theorem consistent_after (config : PoolConfig) (ops : List Op)
    (hturnover : turnover ops < UInt64.size) : Consistent ((empty config).after ops) := by
  obtain ⟨roster, hroster, -, hchron⟩ := exists_roster_after config ops
  exact hroster.consistent (hchron hturnover)

/-- The second insertion reuses the slot of the first. -/
theorem consistent_after_reuse :
    turnover [.insert .shell false, .remove ⟨0, 1⟩, .insert .shell true] < UInt64.size ∧
      Consistent ((empty .default).after
        [.insert .shell false, .remove ⟨0, 1⟩, .insert .shell true]) :=
  ⟨by decide, consistent_after .default _ (by decide)⟩

end Pool

end PackagePool
