import Mathlib.Data.List.Nodup
import PackagePool.Proofs.Pool.Indexing
import PackagePool.Proofs.Pool.Transition

/-!
# The roster of a pool

The roster of a pool is the list of its live items in the order of insertion.  It is not part of the
state; `Pool.HasRoster` relates it to a pool, and says of each of the five structures what it holds
in terms of the roster.  In particular each list of an index is the roster, scanned for a name or a
key.

A new item goes to the end of the roster, a removal filters it, and a status change maps over it.
`HasRoster.place`, `HasRoster.vacate` and `HasRoster.writeStatus` say so for the three ways in which
a pool changes.  None of them needs the generation counter.
-/

namespace PackagePool

namespace Pool

/-- `roster` lists the items of `p` in the order of insertion, and the slots, the free list, the
count and both indexes of `p` agree with it. -/
structure HasRoster (p : Pool) (roster : List Item) : Prop where
  mem_iff : ∀ item, item ∈ roster ↔ p.item? item.handle.index = some item
  index_nodup : (roster.map fun item => item.handle.index).Nodup
  free_nodup : p.free.Nodup
  mem_free_iff : ∀ index, index ∈ p.free ↔ index < p.slots.size ∧ p.item? index = none
  live_eq : p.live = roster.length
  names_eq : ∀ name, p.nameIndex.entries name =
    (roster.filter fun item => item.name = name).map fun item => item.handle.index
  caps_eq : ∀ key, p.capIndex.entries key = roster.flatMap fun item => item.refs key
  names_tight : p.nameIndex.Tight
  caps_tight : p.capIndex.Tight

theorem hasRoster_empty (config : PoolConfig) : HasRoster (empty config) [] where
  mem_iff item := by simp [empty, item?, slot?]
  index_nodup := List.nodup_nil
  free_nodup := List.nodup_nil
  mem_free_iff index := by simp [empty]
  live_eq := rfl
  names_eq name := Index.entries_empty name
  caps_eq key := Index.entries_empty key
  names_tight := Index.tight_empty
  caps_tight := Index.tight_empty

variable {p : Pool} {roster : List Item}

/-- Slots are told apart by their indexes. -/
theorem HasRoster.eq_of_index (hroster : HasRoster p roster) {a b : Item} (ha : a ∈ roster)
    (hb : b ∈ roster) (hindex : a.handle.index = b.handle.index) : a = b := by
  have ha' := (hroster.mem_iff a).1 ha
  rw [hindex, (hroster.mem_iff b).1 hb] at ha'
  exact (Option.some.inj ha').symm

theorem HasRoster.mem_of_find? (hroster : HasRoster p roster) {h : Handle} {slot : Slot}
    (hfind : p.find? h = some slot) : ⟨h, slot.unit, slot.status⟩ ∈ roster :=
  (hroster.mem_iff _).2 (item?_of_find? hfind)

/-! ## A new item -/

/-- The slot for a new item is empty and, unless it is the one behind the last, free; the free slots
left then are the other free ones. -/
theorem HasRoster.vacancy_spec (hroster : HasRoster p roster) :
    p.vacancy.1 ≤ p.slots.size ∧ p.item? p.vacancy.1 = none ∧ p.vacancy.2.Nodup ∧
      ∀ index, index ∈ p.vacancy.2 ↔
        index < p.slots.size ∧ p.item? index = none ∧ index ≠ p.vacancy.1 := by
  have hmem := hroster.mem_free_iff
  have hnodup := hroster.free_nodup
  unfold vacancy
  cases hfree : p.free with
  | nil =>
    rw [hfree] at hmem
    refine ⟨Nat.le_refl _, ?_, List.nodup_nil, fun index => ?_⟩
    · simp [item?, slot?]
    · have hoccupied := hmem index
      simp only [List.not_mem_nil, false_iff] at hoccupied ⊢
      exact fun h => hoccupied ⟨h.1, h.2.1⟩
  | cons head rest =>
    rw [hfree] at hmem hnodup
    obtain ⟨hhead, hrest⟩ := List.nodup_cons.1 hnodup
    obtain ⟨hlt, hnone⟩ := (hmem head).1 List.mem_cons_self
    refine ⟨Nat.le_of_lt hlt, hnone, hrest, fun index => ?_⟩
    rw [← and_assoc, ← hmem index, List.mem_cons]
    constructor
    · intro (hindex : index ∈ rest)
      exact ⟨.inr hindex, fun (heq : index = head) => hhead (heq ▸ hindex)⟩
    · rintro ⟨heq | hindex, hne⟩
      · exact absurd heq hne
      · exact hindex

theorem HasRoster.index_ne_vacancy (hroster : HasRoster p roster) {item : Item}
    (hitem : item ∈ roster) : item.handle.index ≠ p.vacancy.1 := by
  intro heq
  have hsome := (hroster.mem_iff item).1 hitem
  rw [heq, hroster.vacancy_spec.2.1] at hsome
  simp at hsome

theorem HasRoster.names_place (hroster : HasRoster p roster) (u : PackageUnit) (installed : Bool)
    (name : String) :
    (p.place u installed).1.nameIndex.entries name =
      ((roster ++ [p.arrival u installed]).filter fun item => item.name = name).map
        fun item => item.handle.index := by
  show (p.nameIndex.push u.name p.vacancy.1).entries name = _
  rw [Index.entries_push, hroster.names_eq]
  by_cases hname : u.name = name
  · have harrival : (p.arrival u installed).name = name := hname
    simp only [hname, if_true, List.filter_append, List.map_append, List.filter_singleton,
      harrival, decide_true]
    rfl
  · have harrival : ¬ (p.arrival u installed).name = name := hname
    simp [hname, harrival, List.filter_append]

theorem HasRoster.caps_place (hroster : HasRoster p roster) (u : PackageUnit) (installed : Bool)
    (key : CapKey) :
    (p.place u installed).1.capIndex.entries key =
      (roster ++ [p.arrival u installed]).flatMap fun item => item.refs key := by
  show ((u.capRefs p.vacancy.1).foldl (fun ix ref => ix.push ref.1 ref.2) p.capIndex).entries
    key = _
  rw [Index.entries_foldl_push, hroster.caps_eq, List.flatMap_append, List.flatMap_singleton]
  rfl

theorem HasRoster.place (hroster : HasRoster p roster) (u : PackageUnit) (installed : Bool) :
    HasRoster (p.place u installed).1 (roster ++ [p.arrival u installed]) := by
  obtain ⟨hle, hvacant, hnodup, hfree⟩ := hroster.vacancy_spec
  constructor
  case mem_iff =>
    intro item
    rw [item?_place hle, List.mem_append, List.mem_singleton, hroster.mem_iff]
    by_cases hindex : item.handle.index = p.vacancy.1
    · rw [if_pos hindex, hindex, hvacant]
      simp [eq_comm]
    · rw [if_neg hindex]
      have hne : item ≠ p.arrival u installed := by
        rintro rfl
        exact hindex rfl
      simp [hne]
  case index_nodup =>
    rw [List.map_append, List.nodup_append]
    refine ⟨hroster.index_nodup, by simp, ?_⟩
    intro index hindex other hother
    obtain ⟨item, hitem, rfl⟩ := List.mem_map.1 hindex
    rw [List.map_singleton, List.mem_singleton] at hother
    rw [hother]
    exact hroster.index_ne_vacancy hitem
  case free_nodup => exact hnodup
  case mem_free_iff =>
    intro index
    show index ∈ p.vacancy.2 ↔ _
    rw [hfree, item?_place hle, size_place hle]
    by_cases hindex : index = p.vacancy.1
    · simp [hindex]
    · have hlt : index < max p.slots.size (p.vacancy.1 + 1) ↔ index < p.slots.size := by omega
      simp [hindex, hlt]
  case live_eq =>
    show p.live + 1 = _
    rw [hroster.live_eq, List.length_append, List.length_singleton]
  case names_eq => exact hroster.names_place u installed
  case caps_eq => exact hroster.caps_place u installed
  case names_tight => exact Index.tight_push hroster.names_tight _ _
  case caps_tight => exact Index.tight_foldl_push _ hroster.caps_tight

/-! ## A removal -/

/-- Where keeping an image depends on its origin only, images can be kept by keeping origins. -/
theorem filter_flatMap_of_forall {α β : Type} {f : α → List β} {keep : β → Bool} {kept : α → Bool}
    (h : ∀ a, ∀ b ∈ f a, keep b = kept a) (l : List α) :
    (l.flatMap f).filter keep = (l.filter kept).flatMap f := by
  induction l with
  | nil => rfl
  | cons a l ih =>
    rw [List.flatMap_cons, List.filter_append, ih]
    cases hkept : kept a with
    | false =>
      have hnone : (f a).filter keep = [] :=
        List.filter_eq_nil_iff.2 fun b hb => by simp [h a b hb, hkept]
      rw [hnone, List.nil_append, List.filter_cons_of_neg (by simp [hkept])]
    | true =>
      have hall : (f a).filter keep = f a :=
        List.filter_eq_self.2 fun b hb => (h a b hb).trans hkept
      rw [hall, List.filter_cons_of_pos hkept, List.flatMap_cons]

theorem length_filter_ne_of_mem {α β : Type} [DecidableEq β] {f : α → β} {l : List α} {a : α}
    (hnodup : (l.map f).Nodup) (ha : a ∈ l) :
    (l.filter fun b => f b ≠ f a).length = l.length - 1 := by
  have hmap : (l.filter fun b => f b ≠ f a).map f = (l.map f).erase (f a) := by
    rw [hnodup.erase_eq_filter, List.filter_map]
    congr 1
    exact List.filter_congr fun b _ => by simp [bne, beq_eq_decide]
  rw [← List.length_map f, hmap, List.length_erase_of_mem (List.mem_map_of_mem ha), List.length_map]

/-- Whatever item the roster has for the slot of an accepted handle, its unit is the one found. -/
theorem HasRoster.unit_eq_of_find? (hroster : HasRoster p roster) {h : Handle} {slot : Slot}
    (hfind : p.find? h = some slot) {item : Item} (hitem : item ∈ roster)
    (hindex : item.handle.index = h.index) : item.unit = slot.unit := by
  rw [hroster.eq_of_index hitem (hroster.mem_of_find? hfind) hindex]

theorem HasRoster.names_vacate (hroster : HasRoster p roster) {h : Handle} {slot : Slot}
    (hfind : p.find? h = some slot) (name : String) :
    (p.vacate h.index slot.unit).nameIndex.entries name =
      ((roster.filter fun item => item.handle.index ≠ h.index).filter
        fun item => item.name = name).map fun item => item.handle.index := by
  show ([(slot.unit.name, h.index)].foldl
    (fun ix ref => ix.discard ref.1 fun index => index == h.index) p.nameIndex).entries name = _
  rw [Index.entries_foldl_discard_of_covered, hroster.names_eq]
  · simp only [List.filter_map, List.filter_filter, Function.comp_def]
    congr 1
    refine List.filter_congr fun item _ => ?_
    rw [Bool.and_comm]
    simp [beq_eq_decide]
  · intro key index hindex hdrop
    rw [hroster.names_eq] at hindex
    obtain ⟨item, hin, rfl⟩ := List.mem_map.1 hindex
    obtain ⟨hin, hname⟩ := List.mem_filter.1 hin
    have hsame := hroster.unit_eq_of_find? hfind hin (by simpa using hdrop)
    simp only [List.map_singleton, List.mem_singleton]
    rw [← hsame]
    exact (of_decide_eq_true hname).symm

theorem HasRoster.caps_vacate (hroster : HasRoster p roster) {h : Handle} {slot : Slot}
    (hfind : p.find? h = some slot) (key : CapKey) :
    (p.vacate h.index slot.unit).capIndex.entries key =
      (roster.filter fun item => item.handle.index ≠ h.index).flatMap
        fun item => item.refs key := by
  show ((slot.unit.capRefs h.index).foldl
    (fun ix ref => ix.discard ref.1 fun place => place.slot == h.index) p.capIndex).entries key = _
  rw [Index.entries_foldl_discard_of_covered, hroster.caps_eq]
  · refine filter_flatMap_of_forall (fun item ref href => ?_) roster
    rw [PackageUnit.slot_of_mem_refsUnder href]
    simp [beq_eq_decide]
  · intro key ref href hdrop
    rw [hroster.caps_eq] at href
    obtain ⟨item, hin, href⟩ := List.mem_flatMap.1 href
    have hslot : item.handle.index = h.index := by
      rw [← PackageUnit.slot_of_mem_refsUnder href]
      simpa using hdrop
    rw [Item.refs, hroster.unit_eq_of_find? hfind hin hslot, hslot] at href
    exact PackageUnit.key_mem_of_mem_refsUnder href

theorem HasRoster.vacate (hroster : HasRoster p roster) {h : Handle} {slot : Slot}
    (hfind : p.find? h = some slot) :
    HasRoster (p.vacate h.index slot.unit)
      (roster.filter fun item => item.handle.index ≠ h.index) := by
  have hitem := item?_of_find? hfind
  have hmem := hroster.mem_of_find? hfind
  have hlt : h.index < p.slots.size := lt_size_of_find? hfind
  constructor
  case mem_iff =>
    intro item
    rw [item?_vacate hlt, List.mem_filter, hroster.mem_iff]
    by_cases hindex : item.handle.index = h.index
    · simp [hindex]
    · simp [hindex]
  case index_nodup => exact hroster.index_nodup.sublist (List.filter_sublist.map _)
  case free_nodup =>
    refine List.nodup_cons.2 ⟨fun hfree => ?_, hroster.free_nodup⟩
    rw [hroster.mem_free_iff, hitem] at hfree
    simp at hfree
  case mem_free_iff =>
    intro index
    show index ∈ h.index :: p.free ↔ _
    rw [List.mem_cons, hroster.mem_free_iff, item?_vacate hlt, size_vacate hlt]
    by_cases hindex : index = h.index
    · simp [hindex, hlt]
    · simp [hindex]
  case live_eq =>
    show p.live - 1 = _
    rw [hroster.live_eq]
    exact (length_filter_ne_of_mem hroster.index_nodup hmem).symm
  case names_eq => exact hroster.names_vacate hfind
  case caps_eq => exact hroster.caps_vacate hfind
  case names_tight => exact Index.tight_discard hroster.names_tight _ _
  case caps_tight => exact Index.tight_foldl_discard _ _ hroster.caps_tight

/-! ## A status change -/

theorem HasRoster.writeStatus (hroster : HasRoster p roster) {index : Nat} {slot : Slot}
    (hslot : p.slot? index = some slot) (status : Status) :
    HasRoster (p.writeStatus index slot status) (roster.map (Item.restatus index status)) := by
  have hlt := lt_size_of_slot? hslot
  constructor
  case mem_iff =>
    intro item
    rw [item?_writeStatus hslot, List.mem_map, Option.map_eq_some_iff]
    constructor
    · rintro ⟨old, hold, rfl⟩
      rw [Item.restatus_handle]
      exact ⟨old, (hroster.mem_iff old).1 hold, rfl⟩
    · rintro ⟨old, hold, hitem⟩
      obtain ⟨-, hindex⟩ := item?_eq_some_iff.1 hold
      exact ⟨old, (hroster.mem_iff old).2 (by rw [hindex, hold]), hitem⟩
  case index_nodup => simpa [Function.comp_def] using hroster.index_nodup
  case free_nodup => exact hroster.free_nodup
  case mem_free_iff =>
    intro other
    show other ∈ p.free ↔ _
    rw [hroster.mem_free_iff, item?_writeStatus hslot, size_writeStatus hlt,
      Option.map_eq_none_iff]
  case live_eq =>
    show p.live = _
    rw [hroster.live_eq, List.length_map]
  case names_eq =>
    intro name
    show p.nameIndex.entries name = _
    rw [hroster.names_eq]
    simp [List.filter_map, Function.comp_def]
  case caps_eq =>
    intro key
    show p.capIndex.entries key = _
    rw [hroster.caps_eq]
    simp [List.flatMap_map, Item.refs]
  case names_tight => exact hroster.names_tight
  case caps_tight => exact hroster.caps_tight

/-! ## The items in slot order -/

theorem mem_items_iff {item : Item} :
    item ∈ p.items ↔ p.item? item.handle.index = some item := by
  rw [items, List.mem_filterMap]
  constructor
  · rintro ⟨index, -, hitem⟩
    rw [(item?_eq_some_iff.1 hitem).2, hitem]
  · intro hitem
    have hlt := lt_size_of_slot? (item?_eq_some_iff.1 hitem).1
    exact ⟨item.handle.index, List.mem_range.2 hlt, hitem⟩

/-- A scan that goes beyond the last slot finds the same items. -/
theorem filterMap_range_of_le (p : Pool) {n : Nat} (hle : p.slots.size ≤ n) :
    (List.range n).filterMap p.item? = p.items := by
  obtain ⟨k, rfl⟩ := Nat.exists_eq_add_of_le hle
  have hbeyond : ((List.range k).map (p.slots.size + ·)).filterMap p.item? = [] := by
    refine List.filterMap_eq_nil_iff.2 fun index hindex => ?_
    obtain ⟨i, -, rfl⟩ := List.mem_map.1 hindex
    simp [item?, slot?]
  rw [List.range_add, List.filterMap_append, hbeyond, List.append_nil, items]

theorem items_pairwise_index (p : Pool) :
    p.items.Pairwise fun a b => a.handle.index < b.handle.index := by
  rw [items, List.pairwise_filterMap]
  refine List.pairwise_lt_range.imp ?_
  intro i j hlt a ha b hb
  rw [(item?_eq_some_iff.1 ha).2, (item?_eq_some_iff.1 hb).2]
  exact hlt

theorem nodup_items (p : Pool) : p.items.Nodup := by
  refine (items_pairwise_index p).imp ?_
  rintro a b hlt rfl
  exact Nat.lt_irrefl _ hlt

theorem length_items (p : Pool) : p.items.length = p.slots.countP Option.isSome := by
  have hslots : (List.range p.slots.size).map p.slot? = p.slots.toList := by
    refine List.ext_getElem (by simp) fun index _ hlt => ?_
    rw [Array.length_toList] at hlt
    simp [slot?, Array.getElem?_eq_getElem hlt]
  rw [items, List.length_filterMap_eq_countP, ← Array.countP_toList, ← hslots, List.countP_map]
  congr 1
  funext index
  simp [item?]

theorem HasRoster.nodup (hroster : HasRoster p roster) : roster.Nodup :=
  hroster.index_nodup.of_map _

/-- The roster and the slots list the same items. -/
theorem HasRoster.perm_items (hroster : HasRoster p roster) : roster.Perm p.items :=
  (List.perm_ext_iff_of_nodup hroster.nodup (nodup_items p)).2 fun item => by
    rw [hroster.mem_iff, mem_items_iff]

end Pool

end PackagePool
