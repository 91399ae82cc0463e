import PackagePool.Proofs.Pool.IndexedQueries
import PackagePool.Proofs.Pool.Reordering

/-!
# Selection

`Pool.select` collects the handles of the items that a filter accepts, so that the pool can be
changed afterwards.  It scans the slots, which may have holes and may have been reused, and asks the
filter about each live item once, in slot order.  The order is observable: a filter may take notes,
and a probe may even let its answers depend on what it was asked before.

`Pool.SelectionLaws` collects what users of a selection rely on: what is asked and what is returned,
that combined filters select intersections, unions and complements, and that the handles outlast
whatever is done to the pool afterwards, short of removing them.  The main result, `selection_laws`,
says that the laws hold of every pool that a run leads to.

Selected items are marked one by one (`Pool.mark`).  This is a run of operations like any other
(`mark_eq_run`), so whatever is known of runs holds of it.
-/

namespace PackagePool

namespace Pool

variable {p : Pool} {τ σ : Type}

/-! ## The scan -/

theorem select_snd (p : Pool) (f : Filter τ Item) :
    (p.select f).2 = p.items.flatMap fun item => (f item).notes := by
  rw [← Filter.sift_snd]
  rfl

/-- A filter that takes notes is asked as the probe that remembers them. -/
theorem run_selectWith_probe (p : Pool) (f : Filter τ Item) (notes : List τ) :
    (p.selectWith f.probe).run notes = ((p.select f).1, notes ++ (p.select f).2) :=
  congrArg (fun sifted : List Item × List τ => (sifted.1.map Item.handle, sifted.2))
    (f.run_sift_probe p.items notes)

theorem selectWith_eq_mapM (p : Pool) (probe : Probe σ Item) :
    p.selectWith probe = do
      return (Probe.pick p.items (← p.items.mapM probe)).map Item.handle := by
  rw [selectWith, Probe.sift_eq_mapM]
  simp only [bind_assoc, pure_bind]

theorem selectWith_sublist (p : Pool) (probe : Probe σ Item) (memory : σ) :
    ((p.selectWith probe).run memory).1.Sublist (p.items.map Item.handle) := by
  rw [selectWith_eq_mapM]
  exact (Probe.pick_sublist _ _).map Item.handle

/-! ## What is selected -/

/-- A handle is selected exactly if the item that it names is accepted. -/
theorem mem_select_iff {f : Filter τ Item} {h : Handle} :
    h ∈ (p.select f).1 ↔ ∃ item, p.get h = .ok item ∧ (f item).accepted = true := by
  rw [select_fst, List.mem_map]
  simp only [List.mem_filter, mem_items_iff_get]
  constructor
  · rintro ⟨item, ⟨hget, haccepted⟩, rfl⟩
    exact ⟨item, hget, haccepted⟩
  · rintro ⟨item, hget, haccepted⟩
    obtain ⟨-, rfl⟩ := get_eq_ok_iff.1 hget
    exact ⟨item, ⟨hget, haccepted⟩, rfl⟩

theorem handle_mem_select_iff {f : Filter τ Item} {item : Item}
    (hget : p.get item.handle = .ok item) :
    item.handle ∈ (p.select f).1 ↔ (f item).accepted = true := by
  rw [mem_select_iff, hget]
  simp

/-- A filter that decides about an item by its handle selects from the handles of the pool. -/
theorem select_eq_filter {f : Filter τ Item} {chosen : Handle → Prop} [DecidablePred chosen]
    (hchosen : ∀ item, p.get item.handle = .ok item →
      ((f item).accepted = true ↔ chosen item.handle)) :
    (p.select f).1 = (p.items.map Item.handle).filter fun h => chosen h := by
  rw [select_fst, List.filter_map]
  congr 1
  refine List.filter_congr fun item hitem => ?_
  rw [Bool.eq_iff_iff, hchosen item (mem_items_iff_get.1 hitem)]
  exact decide_eq_true_iff.symm

theorem select_chain (f g : Filter τ Item) :
    (p.select (f.chain g)).1 = (p.items.map Item.handle).filter
      fun h => h ∈ (p.select f).1 ∧ h ∈ (p.select g).1 := by
  refine select_eq_filter fun item hget => ?_
  rw [handle_mem_select_iff hget, handle_mem_select_iff hget, Filter.accepted_chain,
    Bool.and_eq_true_iff]

theorem select_either (f g : Filter τ Item) :
    (p.select (f.either g)).1 = (p.items.map Item.handle).filter
      fun h => h ∈ (p.select f).1 ∨ h ∈ (p.select g).1 := by
  refine select_eq_filter fun item hget => ?_
  rw [handle_mem_select_iff hget, handle_mem_select_iff hget, Filter.accepted_either,
    Bool.or_eq_true_iff]

theorem select_negate (f : Filter τ Item) :
    (p.select f.negate).1 = (p.items.map Item.handle).filter fun h => h ∉ (p.select f).1 := by
  refine select_eq_filter fun item hget => ?_
  rw [handle_mem_select_iff hget, Filter.accepted_negate, Bool.not_eq_true', Bool.not_eq_true]

/-! ## Marking -/

/-- An item can be looked at once its mark has been set. -/
theorem exists_get_of_setTransact {changed : Pool} {h : Handle} {transact : Bool} {causer : Causer}
    (hset : p.setTransact h transact causer = .ok changed) : ∃ item, changed.get h = .ok item := by
  cases hfind : p.find? h with
  | none =>
    rw [setTransact, check_of_not_find? hfind] at hset
    cases hset
  | some slot =>
    simp only [setTransact, check_of_find? hfind] at hset
    split at hset
    · cases hset
    · rename_i status _
      obtain rfl := Except.ok.inj hset
      refine ⟨⟨h, slot.unit, status⟩, ?_⟩
      rw [get, check_of_find? (find?_writeStatus_self hfind status)]

/-- What is answered about an item that was to be marked, as the response of an operation. -/
def markResponse : Except PoolError Item → Response
  | .ok _ => .changed
  | .error e => .failed e

theorem markAll_eq_run (p : Pool) (transact : Bool) (causer : Causer) (handles : List Handle) :
    let ops := handles.map fun h => Op.setTransact h transact causer
    (p.markAll transact causer handles).1 = (p.run ops).1 ∧
      (p.markAll transact causer handles).2.map markResponse = (p.run ops).2 := by
  induction handles generalizing p with
  | nil => exact ⟨rfl, rfl⟩
  | cons h rest ih =>
    simp only [List.map_cons, run, markAll, step]
    cases hset : p.setTransact h transact causer with
    | error e => exact ⟨(ih p).1, congrArg (_ :: ·) (ih p).2⟩
    | ok changed =>
      obtain ⟨item, hget⟩ := exists_get_of_setTransact hset
      simp only [hget]
      exact ⟨(ih changed).1, congrArg (_ :: ·) (ih changed).2⟩

/-- To mark what a filter accepts is to select it and to run one operation for each handle. -/
theorem mark_eq_run (p : Pool) (f : Filter τ Item) (transact : Bool) (causer : Causer) :
    let ops := (p.select f).1.map fun h => Op.setTransact h transact causer
    let (final, answers, notes) := p.mark f transact causer
    final = (p.run ops).1 ∧ answers.map markResponse = (p.run ops).2 ∧ notes = (p.select f).2 := by
  obtain ⟨hfinal, hanswers⟩ := markAll_eq_run p transact causer (p.select f).1
  exact ⟨hfinal, hanswers, rfl⟩

/-! ## The laws -/

/-- What users of a selection rely on. -/
structure SelectionLaws (p : Pool) : Prop where
  /-- The scan has exactly the items that a handle finds, -/
  mem_items_iff : ∀ item, item ∈ p.items ↔ p.get item.handle = .ok item
  /-- each of them once, and in slot order. -/
  items_ascending : p.items.Pairwise fun a b => a.handle.index < b.handle.index
  /-- A probe is asked once about each item of the scan in turn, and the handles of the items with a
  positive answer are selected. -/
  selectWith_eq : ∀ {σ : Type} (probe : Probe σ Item), p.selectWith probe = do
    return (Probe.pick p.items (← p.items.mapM probe)).map Item.handle
  /-- What is selected is in slot order and without repetition, whatever a probe remembers. -/
  selectWith_sublist : ∀ {σ : Type} (probe : Probe σ Item) (memory : σ),
    ((p.selectWith probe).run memory).1.Sublist (p.items.map Item.handle)
  /-- A filter selects the items that it accepts, and takes its notes about each item. -/
  select_eq : ∀ {τ : Type} (f : Filter τ Item), p.select f =
    ((p.items.filter fun item => (f item).accepted).map Item.handle,
      p.items.flatMap fun item => (f item).notes)
  /-- A filter does what a probe does that remembers notes. -/
  run_selectWith_probe : ∀ {τ : Type} (f : Filter τ Item) (notes : List τ),
    (p.selectWith f.probe).run notes = ((p.select f).1, notes ++ (p.select f).2)
  /-- A selected handle finds an accepted item, and the handle of each accepted item is selected. -/
  mem_select_iff : ∀ {τ : Type} (f : Filter τ Item) (h : Handle),
    h ∈ (p.select f).1 ↔ ∃ item, p.get h = .ok item ∧ (f item).accepted = true
  select_chain : ∀ {τ : Type} (f g : Filter τ Item), (p.select (f.chain g)).1 =
    (p.items.map Item.handle).filter fun h => h ∈ (p.select f).1 ∧ h ∈ (p.select g).1
  select_either : ∀ {τ : Type} (f g : Filter τ Item), (p.select (f.either g)).1 =
    (p.items.map Item.handle).filter fun h => h ∈ (p.select f).1 ∨ h ∈ (p.select g).1
  select_negate : ∀ {τ : Type} (f : Filter τ Item), (p.select f.negate).1 =
    (p.items.map Item.handle).filter fun h => h ∉ (p.select f).1
  /-- A handle that finds an item goes on finding it as long as it is not removed; of the item, only
  the status changes, and only on request. -/
  lasting : ∀ (h : Handle) (item : Item), p.get h = .ok item →
    ∀ later : List Op, .remove h ∉ later →
      (p.after later).get h = .ok { item with status := item.status.replay (requests h later) }

/-- **Selections obey their laws.**  In every pool that a run leads to, a selection asks the filter
once about each live item, in slot order, and returns the handles of the accepted ones in that
order; combined filters select intersections, unions and complements; and each handle keeps naming
its item until it is removed. -/
theorem selection_laws (config : PoolConfig) (ops : List Op) :
    SelectionLaws ((empty config).after ops) := by
  obtain ⟨roster, hroster, -, -⟩ := exists_roster_after config ops
  constructor
  case mem_items_iff => exact fun item => mem_items_iff_get
  case items_ascending => exact items_pairwise_index _
  case selectWith_eq => exact selectWith_eq_mapM _
  case selectWith_sublist => exact selectWith_sublist _
  case select_eq => exact fun f => Prod.ext (select_fst _ f) (select_snd _ f)
  case run_selectWith_probe => exact run_selectWith_probe _
  case mem_select_iff => exact fun f h => mem_select_iff
  case select_chain => exact select_chain
  case select_either => exact select_either
  case select_negate => exact select_negate
  case lasting =>
    intro h item hget later hkept
    exact get_after_of_kept hroster hget (not_releases_of_not_mem hkept)

/-- Of two items the installed one is selected.  Its handle outlasts the removal of the other item,
a newcomer in the slot of that one, and a mark of its own. -/
theorem selection_laws_installed :
    let stocked := (empty .default).after [.insert .shell false, .insert .shell true]
    let installed : Filter Empty Item := .ofPredicate fun item => item.status.installed
    let later : List Op := [.remove ⟨0, 1⟩, .insert .shell false, .setTransact ⟨1, 2⟩ true .solver]
    (stocked.select installed).1 = [⟨1, 2⟩] ∧
      .remove ⟨1, 2⟩ ∉ later ∧ (stocked.after later).items.map Item.handle = [⟨0, 4⟩, ⟨1, 2⟩] ∧
      ∃ item, stocked.get ⟨1, 2⟩ = .ok item ∧ (stocked.after later).get ⟨1, 2⟩ =
        .ok { item with status := item.status.replay [.setTransact true .solver] } := by
  intro stocked installed later
  have hselected : (stocked.select installed).1 = [⟨1, 2⟩] := by decide +kernel
  have hkept : .remove ⟨1, 2⟩ ∉ later := by simp [later]
  have hlaws : SelectionLaws stocked :=
    selection_laws .default [.insert .shell false, .insert .shell true]
  obtain ⟨item, hget, -⟩ := (hlaws.mem_select_iff installed ⟨1, 2⟩).1
    (hselected ▸ List.mem_singleton_self _)
  exact ⟨hselected, hkept, by decide +kernel, item, hget, hlaws.lasting _ item hget later hkept⟩

end Pool

end PackagePool
