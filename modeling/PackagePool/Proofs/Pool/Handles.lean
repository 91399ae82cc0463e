import PackagePool.Proofs.Pool.Frame

/-!
# Handles

A handle is given out when a unit is placed.  From then on it names that unit, whatever else happens
in the pool, until it is used to remove the unit; after that no operation accepts it any more, even
though its slot is reused.  The main result is `handle_soundness`.

A handle has one of two states.  It `Names` its unit, which no transition but its own removal can
disturb; or it is `Spent`: no slot answers to it, and its generation is no longer ahead of the
counter.  The second half is what keeps a spent handle spent, since a reused slot gets a generation
beyond the counter.  The same bound on all handles answered so far makes a new handle new.
-/

namespace PackagePool

namespace Pool

/-! ## Handles that are accepted, and handles that are not -/

/-- Every operation refuses the handle as stale. -/
structure Stale (p : Pool) (h : Handle) : Prop where
  get : p.get h = .error (.stale h)
  getStatus : p.getStatus h = .error (.stale h)
  changeStatus : ∀ change, p.changeStatus h change = .error (.stale h)
  setTransact : ∀ transact causer, p.setTransact h transact causer = .error (.stale h)
  forceTransact : ∀ transact, p.forceTransact h transact = .error (.stale h)
  setLock : ∀ locked, p.setLock h locked = .error (.stale h)
  remove : p.remove h = .error (.stale h)

theorem stale_of_find? {p : Pool} {h : Handle} (hfind : p.find? h = none) : p.Stale h := by
  have hcheck := check_of_not_find? hfind
  have hchange : ∀ change, p.changeStatus h change = .error (.stale h) := by
    intro change
    rw [Pool.changeStatus, hcheck]
  constructor
  case get => rw [Pool.get, hcheck]
  case getStatus => rw [Pool.getStatus, hcheck]
  case changeStatus => exact hchange
  case setTransact =>
    intro transact causer
    rw [Pool.setTransact, hcheck]
  case forceTransact => exact fun transact => hchange (.forceTransact transact)
  case setLock => exact fun locked => hchange (.setLock locked)
  case remove => rw [Pool.remove, hcheck]

/-- The handles that are accepted are those of the items. -/
theorem exists_get_eq_ok_iff (p : Pool) (h : Handle) :
    (∃ item, p.get h = .ok item) ↔ h ∈ p.items.map Item.handle := by
  simp only [List.mem_map, mem_items_iff, get_eq_ok_iff]

/-- Whether one of the operations is a removal through `h` that succeeds. -/
def Releases (p : Pool) (h : Handle) (ops : List Op) : Prop :=
  ∃ u, (Op.remove h, Response.removed u) ∈ ops.zip (p.run ops).2

theorem not_releases_nil (p : Pool) (h : Handle) : ¬ p.Releases h [] := by
  simp [Releases]

theorem not_releases_of_not_mem {p : Pool} {h : Handle} {ops : List Op} (hnone : .remove h ∉ ops) :
    ¬ p.Releases h ops := by
  rintro ⟨u, hmem⟩
  exact hnone (List.of_mem_zip hmem).1

theorem releases_cons {p : Pool} {h : Handle} {op : Op} {ops : List Op} :
    p.Releases h (op :: ops) ↔
      (op = .remove h ∧ ∃ u, (p.step op).2 = .removed u) ∨ (p.step op).1.Releases h ops := by
  have hzip : (op :: ops).zip (p.run (op :: ops)).2 =
      (op, (p.step op).2) :: ops.zip ((p.step op).1.run ops).2 := rfl
  rw [Releases, hzip, Releases]
  simp only [List.mem_cons, Prod.mk.injEq, exists_or, exists_and_left, eq_comm]

/-! ## What a transition does to a handle -/

/-- The handle names an item with this unit, whatever its status. -/
def Names (p : Pool) (h : Handle) (u : PackageUnit) : Prop :=
  ∃ status, p.item? h.index = some ⟨h, u, status⟩

/-- No slot answers to the handle, and none will: its generation is not ahead of the counter. -/
def Spent (p : Pool) (h : Handle) : Prop :=
  p.find? h = none ∧ h.generation ≤ p.generation

variable {p q : Pool} {roster : List Item} {op : Op} {r : Response} {ops : List Op} {h : Handle}
  {u : PackageUnit}

theorem Names.exists_get (hnames : p.Names h u) : ∃ status, p.get h = .ok ⟨h, u, status⟩ := by
  obtain ⟨status, hitem⟩ := hnames
  exact ⟨status, get_eq_ok_iff.2 ⟨hitem, rfl⟩⟩

/-- A handle keeps its unit through every transition but its own removal. -/
theorem Names.transition (hnames : p.Names h u) (hroster : HasRoster p roster)
    (t : Transition p op q r) (hkept : ¬ (op = .remove h ∧ ∃ v, r = .removed v)) :
    q.Names h u := by
  obtain ⟨status, hget⟩ := hnames.exists_get
  have hstill := t.get_of_kept hroster hget hkept
  exact ⟨_, (get_eq_ok_iff.1 hstill).1⟩

/-- The generation of a new item is ahead of the counter and thus of every spent handle. -/
theorem Spent.transition (hspent : p.Spent h) (hroster : HasRoster p roster)
    (t : Transition p op q r) (hroom : p.HasRoom [op]) : q.Spent h := by
  obtain ⟨hnone, hle⟩ := hspent
  refine ⟨?_, UInt64.le_trans hle (t.generation_le hroom)⟩
  rw [find?_eq_none_iff] at hnone ⊢
  intro item hitem
  cases t with
  | duplicate => exact hnone item hitem
  | @placed v installed =>
    rw [item?_place hroster.vacancy_spec.1] at hitem
    split at hitem
    · obtain rfl := Option.some.inj hitem
      rintro rfl
      have hlt : p.generation < p.generation + 1 := lt_succ_of_toNat_lt hroom
      have hge : p.generation + 1 ≤ p.generation := hle
      exact UInt64.not_le.2 hlt hge
    · exact hnone item hitem
  | @vacated other slot hfind =>
    have hlt := lt_size_of_find? hfind
    rw [item?_vacate hlt] at hitem
    split at hitem
    · simp at hitem
    · exact hnone item hitem
  | @rewritten _ other change slot written _ _ hfind =>
    rw [item?_writeStatus (slot?_of_find? hfind), Option.map_eq_some_iff] at hitem
    obtain ⟨old, hold, rfl⟩ := hitem
    rw [Item.restatus_handle]
    exact hnone old hold
  | refused => exact hnone item hitem
  | stale => exact hnone item hitem

/-- A removal spends the handle that it goes through. -/
theorem Transition.spent (t : Transition p (.remove h) q (.removed u))
    (hle : h.generation ≤ p.generation) (hroom : p.HasRoom [.remove h]) : q.Spent h :=
  ⟨t.find?_of_removed, UInt64.le_trans hle (t.generation_le hroom)⟩

/-! ## What a run does to a handle -/

theorem Spent.after (hspent : p.Spent h) (hroster : HasRoster p roster) (hroom : p.HasRoom ops) :
    (p.after ops).Spent h := by
  induction ops generalizing p roster with
  | nil => exact hspent
  | cons op ops ih =>
    have hstep := transition_step p op
    obtain ⟨next, hnext, -⟩ := hroster.transition hstep
    rw [after_cons]
    exact ih (hspent.transition hroster hstep hroom.head) hnext hroom.tail

/-- During a run a handle names its unit until it is released, and is spent from then on. -/
theorem Names.after (hnames : p.Names h u) (hle : h.generation ≤ p.generation)
    (hroster : HasRoster p roster) (hroom : p.HasRoom ops) :
    (¬ p.Releases h ops → (p.after ops).Names h u) ∧
      (p.Releases h ops → (p.after ops).Spent h) := by
  induction ops generalizing p roster with
  | nil => exact ⟨fun _ => hnames, fun hreleases => absurd hreleases (not_releases_nil p h)⟩
  | cons op ops ih =>
    have hstep := transition_step p op
    obtain ⟨next, hnext, -⟩ := hroster.transition hstep
    rw [releases_cons, after_cons]
    by_cases hnow : op = .remove h ∧ ∃ v, (p.step op).2 = .removed v
    · refine ⟨fun hkept => absurd (.inl hnow) hkept, fun _ => ?_⟩
      obtain ⟨rfl, v, hanswer⟩ := hnow
      rw [hanswer] at hstep
      exact (hstep.spent hle hroom.head).after hnext hroom.tail
    · have hnames' := hnames.transition hroster hstep hnow
      have hle' := UInt64.le_trans hle (hstep.generation_le hroom.head)
      obtain ⟨hkept, hreleased⟩ := ih hnames' hle' hnext hroom.tail
      refine ⟨fun hnone => hkept fun hlater => hnone (.inr hlater), ?_⟩
      rintro (hhere | hlater)
      · exact absurd hhere hnow
      · exact hreleased hlater

/-! ## The handles answered so far -/

theorem find?_of_findDuplicate? {installed : Bool}
    (hfound : p.findDuplicate? u installed = some h) :
    ∃ slot, p.find? h = some slot ∧ slot.isDuplicate u installed = true := by
  obtain ⟨index, -, hindex⟩ := List.exists_of_findSome?_eq_some hfound
  obtain ⟨slot, hslot, hsame⟩ := Option.bind_eq_some_iff.1 hindex
  split at hsame
  · rename_i hduplicate
    obtain rfl := Option.some.inj hsame
    exact ⟨slot, find?_eq_some_iff.2 ⟨hslot, rfl⟩, hduplicate⟩
  · simp at hsame

theorem Transition.answer_le (t : Transition p op q r) (hroster : HasRoster p roster)
    (hchron : Chronological p roster) (hanswer : r.handle? = some h) :
    h.generation ≤ q.generation := by
  cases t with
  | duplicate hfound =>
    obtain rfl := Option.some.inj hanswer
    obtain ⟨slot, hfind, -⟩ := find?_of_findDuplicate? hfound
    exact hchron.le_counter _ (hroster.mem_of_find? hfind)
  | placed =>
    obtain rfl := Option.some.inj hanswer
    exact UInt64.le_refl _
  | vacated => simp [Response.handle?] at hanswer
  | rewritten => simp [Response.handle?] at hanswer
  | refused => simp [Response.handle?] at hanswer
  | stale => simp [Response.handle?] at hanswer

theorem generation_le_after (hroom : p.HasRoom ops) : p.generation ≤ (p.after ops).generation := by
  induction ops generalizing p with
  | nil => exact UInt64.le_refl _
  | cons op ops ih =>
    have hle := (transition_step p op).generation_le hroom.head
    rw [after_cons]
    exact UInt64.le_trans hle (ih hroom.tail)

/-- No handle answered so far is ahead of the counter. -/
theorem generation_le_of_mem_issued (hroster : HasRoster p roster) (hchron : Chronological p roster)
    (hroom : p.HasRoom ops) (hissued : h ∈ p.issued ops) :
    h.generation ≤ (p.after ops).generation := by
  induction ops generalizing p roster with
  | nil =>
    rw [issued_nil] at hissued
    exact absurd hissued List.not_mem_nil
  | cons op ops ih =>
    have hstep := transition_step p op
    rw [after_cons]
    rw [issued_cons, List.mem_append, Option.mem_toList] at hissued
    rcases hissued with hanswer | hlater
    · have hle := hstep.answer_le hroster hchron hanswer
      exact UInt64.le_trans hle (generation_le_after hroom.tail)
    · obtain ⟨next, hnext, -, hchron'⟩ := hroster.transition hstep
      exact ih hnext (hchron' hroom.head hchron) hroom.tail hlater

/-! ## Soundness -/

theorem names_place (hroster : HasRoster p roster) (u : PackageUnit) (installed : Bool) :
    (p.place u installed).1.Names (p.place u installed).2 u :=
  ⟨(p.arrival u installed).status, (get_eq_ok_iff.1 (get_place hroster u installed)).1⟩

/-- **Handles are sound over whole runs.**  The handle of a unit that is placed is none of those
that were answered before.  As long as it is not released, `get` shows the unit through it; once it
is released, every operation refuses it.  At every point the accepted handles are those of the
items. -/
theorem handle_soundness (config : PoolConfig) :
    (∀ (before later : List Op) (u : PackageUnit) (installed : Bool) (p q : Pool) (h : Handle),
      turnover (before ++ .insert u installed :: later) < UInt64.size →
      (empty config).after before = p →
      p.findDuplicate? u installed = none →
      p.insert u installed = (q, h) →
        h ∉ (empty config).issued before ∧
          (¬ q.Releases h later → ∃ status, (q.after later).get h = .ok ⟨h, u, status⟩) ∧
          (q.Releases h later → (q.after later).Stale h)) ∧
      ∀ (ops : List Op) (h : Handle),
        (∃ item, ((empty config).after ops).get h = .ok item) ↔
          h ∈ ((empty config).after ops).items.map Item.handle := by
  refine ⟨?_, fun ops h => exists_get_eq_ok_iff _ h⟩
  intro before later u installed p q h hturnover hp hnew hinsert
  subst hp
  have hbefore : turnover before < UInt64.size := by
    rw [turnover_append] at hturnover
    omega
  have hroom : ((empty config).after before).HasRoom (.insert u installed :: later) :=
    (hasRoom_empty hturnover).after
  have hlater : q.HasRoom later := by
    have hq : (((empty config).after before).step (.insert u installed)).1 = q :=
      congrArg Prod.fst hinsert
    exact hq ▸ hroom.tail
  obtain ⟨roster, hroster, -, -⟩ := exists_roster_after config before
  rw [insert_of_not_findDuplicate? hnew] at hinsert
  obtain ⟨rfl, rfl⟩ := Prod.mk.inj hinsert
  constructor
  · intro hissued
    have hle := generation_le_of_mem_issued (hasRoster_empty config) (chronological_empty config)
      (hasRoom_empty hbefore) hissued
    exact UInt64.not_le.2 (lt_succ_of_toNat_lt hroom.head) hle
  · obtain ⟨hkept, hreleased⟩ := (names_place hroster u installed).after (UInt64.le_refl _)
      (hroster.place u installed) hlater
    refine ⟨fun hnone => (hkept hnone).exists_get, fun hreleases => ?_⟩
    exact stale_of_find? (hreleased hreleases).1

/-- The second insertion reuses the slot of the first, whose handle is refused then. -/
theorem handle_soundness_reused_slot :
    (⟨0, 3⟩ : Handle) ∉ (empty .default).issued [.insert .shell false, .remove ⟨0, 1⟩] ∧
      ((empty .default).after [.insert .shell false, .remove ⟨0, 1⟩, .insert .shell true,
        .remove ⟨0, 1⟩, .remove ⟨0, 3⟩]).Stale ⟨0, 3⟩ := by
  have hsound := (handle_soundness .default).1 [.insert .shell false, .remove ⟨0, 1⟩]
    [.remove ⟨0, 1⟩, .remove ⟨0, 3⟩] .shell true _ _ ⟨0, 3⟩ (by decide) rfl rfl rfl
  exact ⟨hsound.1, hsound.2.2 ⟨.shell, .tail _ (.head _)⟩⟩

end Pool

end PackagePool
