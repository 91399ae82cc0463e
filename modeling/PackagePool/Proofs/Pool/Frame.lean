import PackagePool.Proofs.Pool.Chronology

/-!
# What a transition does to one item

A transition reaches at most one item that is there already: the one that the handle of the
operation names.  A request for a status change sets the status of this item and nothing else about
it, and a removal takes it out.  All other items stay as they are, even though they share the slots,
the free list and the indexes with it.

`Transition.get_of_kept` says this once.  An item that is not removed keeps its handle and its unit,
and its status follows the requests through its handle, which `Pool.requests` reads off the
operations.
-/

namespace PackagePool

/-! ## One status under requests -/

namespace Status

/-- The status after a request; a refused one leaves it as it is. -/
def perform (s : Status) (change : StatusChange) : Status :=
  match change.apply s with
  | .ok changed => changed
  | .error _ => s

/-- The status after requests in order. -/
def replay (s : Status) (changes : List StatusChange) : Status :=
  changes.foldl perform s

theorem perform_of_ok {s changed : Status} {change : StatusChange}
    (happly : change.apply s = .ok changed) : s.perform change = changed := by
  simp only [perform, happly]

theorem perform_of_error {s : Status} {change : StatusChange} {cause : StatusError}
    (happly : change.apply s = .error cause) : s.perform change = s := by
  simp only [perform, happly]

@[simp] theorem replay_nil (s : Status) : s.replay [] = s := rfl

theorem replay_singleton (s : Status) (change : StatusChange) :
    s.replay [change] = s.perform change := rfl

theorem replay_append (s : Status) (first second : List StatusChange) :
    s.replay (first ++ second) = (s.replay first).replay second :=
  List.foldl_append

end Status

namespace Pool

/-! ## Looking an item up -/

theorem get_eq_ok_iff {p : Pool} {h : Handle} {item : Item} :
    p.get h = .ok item ↔ p.item? item.handle.index = some item ∧ item.handle = h := by
  rw [Pool.get]
  cases hfind : p.find? h with
  | none =>
    rw [check_of_not_find? hfind]
    have hforeign := find?_eq_none_iff.1 hfind
    constructor
    · intro herror
      cases herror
    · rintro ⟨hitem, rfl⟩
      exact absurd rfl (hforeign item hitem)
  | some slot =>
    rw [check_of_find? hfind]
    have hfound := item?_of_find? hfind
    constructor
    · intro hok
      cases hok
      exact ⟨hfound, rfl⟩
    · rintro ⟨hitem, rfl⟩
      rw [hfound] at hitem
      exact congrArg Except.ok (Option.some.inj hitem)

theorem mem_items_iff_get {p : Pool} {item : Item} :
    item ∈ p.items ↔ p.get item.handle = .ok item := by
  rw [mem_items_iff, get_eq_ok_iff]
  exact (and_iff_left rfl).symm

theorem exists_find?_of_get {p : Pool} {h : Handle} {item : Item} (hget : p.get h = .ok item) :
    ∃ slot, p.find? h = some slot ∧ item = ⟨h, slot.unit, slot.status⟩ := by
  obtain ⟨hitem, rfl⟩ := get_eq_ok_iff.1 hget
  obtain ⟨hslot, -⟩ := item?_eq_some_iff.1 hitem
  exact ⟨_, find?_eq_some_iff.2 ⟨hslot, rfl⟩, rfl⟩

/-- The handle of a new item finds it. -/
theorem find?_place {p : Pool} {roster : List Item} (hroster : HasRoster p roster)
    (u : PackageUnit) (installed : Bool) :
    (p.place u installed).1.find? (p.place u installed).2 =
      some ⟨u, .initial installed (p.config.isLocked u.resolvable), p.generation + 1⟩ := by
  refine find?_eq_some_iff.2 ⟨?_, rfl⟩
  rw [slot?_place hroster.vacancy_spec.1]
  exact if_pos rfl

theorem get_place {p : Pool} {roster : List Item} (hroster : HasRoster p roster)
    (u : PackageUnit) (installed : Bool) :
    (p.place u installed).1.get (p.place u installed).2 = .ok (p.arrival u installed) := by
  rw [get, check_of_find? (find?_place hroster u installed)]
  rfl

/-! ## Requests through a handle -/

/-- The status changes that operations ask for through `h`, in order. -/
def requests (h : Handle) (ops : List Op) : List StatusChange :=
  ops.filterMap fun op => if op.handle? = some h then op.change? else none

variable {p q : Pool} {roster : List Item} {op : Op} {r : Response} {ops : List Op}
  {h other : Handle} {item : Item}

theorem requests_cons (h : Handle) (op : Op) (ops : List Op) :
    requests h (op :: ops) = requests h [op] ++ requests h ops :=
  List.filterMap_append (l := [op])

theorem requests_of_change? {change : StatusChange} (hhandle : op.handle? = some h)
    (hchange : op.change? = some change) : requests h [op] = [change] := by
  simp [requests, hhandle, hchange]

/-- A removal asks for no change. -/
@[simp] theorem requests_remove (h other : Handle) : requests h [.remove other] = [] := by
  simp [requests, Op.change?]

theorem requests_of_other (hhandle : op.handle? = some other) (hne : other ≠ h) :
    requests h [op] = [] := by
  simp [requests, hhandle, hne]

/-! ## One transition -/

/-- Through a transition that does not remove it, an item keeps its handle and its unit, and its
status follows the requests through its handle. -/
theorem Transition.get_of_kept (t : Transition p op q r) (hroster : HasRoster p roster)
    (hget : p.get h = .ok item) (hkept : ¬ (op = .remove h ∧ ∃ v, r = .removed v)) :
    q.get h = .ok { item with status := item.status.replay (requests h [op]) } := by
  obtain ⟨slot, hfind, rfl⟩ := exists_find?_of_get hget
  have hitem := item?_of_find? hfind
  cases t with
  | duplicate => exact hget
  | placed =>
    have hne := hroster.index_ne_vacancy (hroster.mem_of_find? hfind)
    rw [get_eq_ok_iff, item?_place hroster.vacancy_spec.1, if_neg hne]
    exact ⟨hitem, rfl⟩
  | @vacated other _ hother =>
    have hne : h.index ≠ other.index := by
      intro heq
      have hsame : h = other := eq_of_find?_of_index hfind hother heq
      exact hkept ⟨by rw [hsame], _, rfl⟩
    rw [requests_remove, get_eq_ok_iff, item?_vacate (lt_size_of_find? hother), if_neg hne]
    exact ⟨hitem, rfl⟩
  | @rewritten _ other change old status hhandle hchange hother happly =>
    rw [get_eq_ok_iff, item?_writeStatus (slot?_of_find? hother), hitem, Option.map_some]
    by_cases hsame : other = h
    · subst hsame
      obtain rfl := Option.some.inj (hother.symm.trans hfind)
      rw [requests_of_change? hhandle hchange, Status.replay_singleton,
        Status.perform_of_ok happly]
      simp [Item.restatus]
    · have hne : h.index ≠ other.index := fun heq =>
        hsame (eq_of_find?_of_index hfind hother heq).symm
      rw [requests_of_other hhandle hsame, Status.replay_nil]
      simp [Item.restatus, hne]
  | @refused _ other change old cause hhandle hchange hother happly =>
    by_cases hsame : other = h
    · subst hsame
      obtain rfl := Option.some.inj (hother.symm.trans hfind)
      rw [requests_of_change? hhandle hchange, Status.replay_singleton,
        Status.perform_of_error happly]
      exact hget
    · rw [requests_of_other hhandle hsame]
      exact hget
  | @stale _ other hhandle hother =>
    have hne : other ≠ h := by
      rintro rfl
      rw [hfind] at hother
      cases hother
    rw [requests_of_other hhandle hne]
    exact hget

/-- An item that is removed is gone. -/
theorem Transition.find?_of_removed {u : PackageUnit}
    (t : Transition p (.remove h) q (.removed u)) : q.find? h = none := by
  cases t with
  | vacated hfind =>
    refine find?_eq_none_of_slot? ?_
    rw [slot?_vacate (lt_size_of_find? hfind), if_pos rfl]

end Pool

end PackagePool
