import Mathlib.Tactic.SplitIfs
import PackagePool.Proofs.Pool.Deduplication
import PackagePool.Proofs.Pool.Renaming

/-!
# Items that come and go

An item that is inserted and removed again leaves two generations used up and, if it was given a
slot of its own, one more slot behind, empty and at the far end of the free list.  Nothing that the
pool does later shows the slot, and nothing but handles shows the generations.

The main result, `insert_remove_unobservable`, compares the pool that the item has visited with the
pool as it was before.  Operations through corresponding handles are answered alike for ever after,
and every query gives the same.  `Pool.Trails` is the relation between the two pools that every
transition keeps: the rosters are the same up to renamed handles, and the free lists differ in the
spare slot at most.
-/

namespace PackagePool

/-! ## Two generations that are skipped -/

/-- The generation that a pool gives where another one gives `g`, if it has skipped the two behind
`start`.  The last two, which it cannot give, stand for the two skipped ones. -/
def skipGeneration (start g : UInt64) : UInt64 :=
  if g ≤ start then g else if g < g + 2 then g + 2 else g + 2 + (start + 1)

/-- The handle with the generation behind the two that are skipped. -/
def Handle.skip (start : UInt64) (h : Handle) : Handle :=
  { h with generation := skipGeneration start h.generation }

variable {start g : UInt64}

@[simp] theorem Handle.skip_index (start : UInt64) (h : Handle) :
    (h.skip start).index = h.index := rfl

theorem skipGeneration_of_le (hle : g ≤ start) : skipGeneration start g = g :=
  if_pos hle

theorem toNat_add_two (hroom : g.toNat + 2 < UInt64.size) : (g + 2).toNat = g.toNat + 2 := by
  rw [UInt64.toNat_add]
  exact Nat.mod_eq_of_lt hroom

theorem skipGeneration_of_lt (hlt : start < g) (hroom : g.toNat + 2 < UInt64.size) :
    skipGeneration start g = g + 2 := by
  have hgrows : g < g + 2 := by
    rw [UInt64.lt_iff_toNat_lt, toNat_add_two hroom]
    omega
  rw [skipGeneration, if_neg (UInt64.not_le.2 hlt), if_pos hgrows]

theorem toNat_skipGeneration (hstart : start.toNat + 2 < UInt64.size) (g : UInt64) :
    (skipGeneration start g).toNat =
      if g.toNat ≤ start.toNat then g.toNat
      else if g.toNat + 2 < UInt64.size then g.toNat + 2
      else g.toNat + 2 - UInt64.size + (start.toNat + 1) := by
  have hbound : g.toNat < UInt64.size := g.toNat_lt
  have hsize : UInt64.size = 2 ^ 64 := rfl
  have htwo : (g + 2).toNat = (g.toNat + 2) % 2 ^ 64 := UInt64.toNat_add g 2
  have hone : (start + 1).toNat = (start.toNat + 1) % 2 ^ 64 := UInt64.toNat_add start 1
  simp only [skipGeneration, apply_ite UInt64.toNat, UInt64.le_iff_toNat_le,
    UInt64.lt_iff_toNat_lt, UInt64.toNat_add (g + 2), htwo, hone]
  split_ifs <;> omega

theorem skipGeneration_injective (hstart : start.toNat + 2 < UInt64.size) :
    Function.Injective (skipGeneration start) := by
  intro a b heq
  have hnat := congrArg UInt64.toNat heq
  have ha : a.toNat < UInt64.size := a.toNat_lt
  have hb : b.toNat < UInt64.size := b.toNat_lt
  rw [toNat_skipGeneration hstart, toNat_skipGeneration hstart] at hnat
  refine UInt64.toNat_inj.1 ?_
  split_ifs at hnat <;> omega

theorem Handle.skip_injective (hstart : start.toNat + 2 < UInt64.size) :
    Function.Injective (Handle.skip start) := by
  intro a b heq
  obtain ⟨hindex, hgeneration⟩ := Handle.mk.inj heq
  exact Handle.ext hindex (skipGeneration_injective hstart hgeneration)

theorem Item.rename_skip_of_le {item : Item} (hle : item.handle.generation ≤ start) :
    item.rename (Handle.skip start) = item := by
  rw [Item.rename, Handle.skip, skipGeneration_of_le hle]

theorem Item.rename_restatus (start : UInt64) (index : Nat) (status : Status) (item : Item) :
    (item.restatus index status).rename (Handle.skip start) =
      (item.rename (Handle.skip start)).restatus index status := by
  unfold Item.restatus
  by_cases hindex : item.handle.index = index
  · have hrenamed : (item.rename (Handle.skip start)).handle.index = index := hindex
    rw [if_pos hindex, if_pos hrenamed]
    rfl
  · have hrenamed : (item.rename (Handle.skip start)).handle.index ≠ index := hindex
    rw [if_neg hindex, if_neg hrenamed]

namespace Pool

/-! ## A spare slot -/

/-- `q` has the slots of `p`, or one more, which is the last of the free ones. -/
def SpareSlot (p q : Pool) : Prop :=
  (q.free = p.free ∧ q.slots.size = p.slots.size) ∨
    (q.free = p.free ++ [p.slots.size] ∧ q.slots.size = p.slots.size + 1)

variable {p q p' : Pool} {roster other : List Item} {op : Op} {ops : List Op} {r : Response}
  {u : PackageUnit} {installed : Bool} {h : Handle} {slot : Slot}

/-- The spare slot is not reused before its index is due anyway. -/
theorem SpareSlot.vacancy_eq (hspare : SpareSlot p q) : q.vacancy.1 = p.vacancy.1 := by
  unfold vacancy
  rcases hspare with ⟨hfree, hsize⟩ | ⟨hfree, hsize⟩
  · rw [hfree, hsize]
  · rw [hfree]
    cases p.free with
    | nil => rfl
    | cons index rest => rfl

theorem SpareSlot.place (hspare : SpareSlot p q) (hp : HasRoster p roster)
    (hq : HasRoster q other) (u : PackageUnit) (installed : Bool) :
    SpareSlot (p.place u installed).1 (q.place u installed).1 := by
  have hvacancy := hspare.vacancy_eq
  unfold SpareSlot
  rw [size_place hp.vacancy_spec.1, size_place hq.vacancy_spec.1, hvacancy]
  show (q.vacancy.2 = p.vacancy.2 ∧ _) ∨ (q.vacancy.2 = p.vacancy.2 ++ _ ∧ _)
  rcases hspare with ⟨hfree, hsize⟩ | ⟨hfree, hsize⟩
  · refine .inl ⟨?_, by rw [hsize]⟩
    simp only [vacancy, hfree, hsize]
  · cases hlast : p.free with
    | nil =>
      -- The new item takes the spare slot in `q` and makes a slot of the same index in `p`.
      refine .inl ⟨?_, ?_⟩
      · simp [vacancy, hfree, hlast]
      · simp [vacancy, hlast, hsize]
    | cons index rest =>
      have hlt : index < p.slots.size := ((hp.mem_free_iff index).1 (by simp [hlast])).1
      have hmax : max p.slots.size (index + 1) = p.slots.size := by omega
      refine .inr ⟨?_, ?_⟩
      · simp [vacancy, hfree, hlast, hmax]
      · simp only [vacancy, hlast, hsize]
        omega

theorem SpareSlot.vacate (hspare : SpareSlot p q) {index : Nat} (hp : index < p.slots.size)
    (hq : index < q.slots.size) (u : PackageUnit) :
    SpareSlot (p.vacate index u) (q.vacate index u) := by
  unfold SpareSlot
  rw [size_vacate hp, size_vacate hq]
  show (index :: q.free = index :: p.free ∧ _) ∨ (index :: q.free = index :: p.free ++ _ ∧ _)
  rcases hspare with ⟨hfree, hslots⟩ | ⟨hfree, hslots⟩
  · exact .inl ⟨by rw [hfree], hslots⟩
  · exact .inr ⟨by rw [hfree, List.cons_append], hslots⟩

theorem SpareSlot.writeStatus (hspare : SpareSlot p q) {index : Nat} (hp : index < p.slots.size)
    (hq : index < q.slots.size) (slot slot' : Slot) (status : Status) :
    SpareSlot (p.writeStatus index slot status) (q.writeStatus index slot' status) := by
  unfold SpareSlot
  rw [size_writeStatus hp, size_writeStatus hq]
  exact hspare

/-- What an item leaves behind that is placed and taken out again. -/
theorem spareSlot_vacate_place (hroster : HasRoster p roster) (u : PackageUnit)
    (installed : Bool) : SpareSlot p ((p.place u installed).1.vacate p.vacancy.1 u) := by
  have hsize := size_place hroster.vacancy_spec.1 u installed
  have hlt : p.vacancy.1 < (p.place u installed).1.slots.size := by omega
  unfold SpareSlot
  rw [size_vacate hlt, hsize]
  show (p.vacancy.1 :: p.vacancy.2 = p.free ∧ _) ∨ (p.vacancy.1 :: p.vacancy.2 = p.free ++ _ ∧ _)
  cases hfree : p.free with
  | nil =>
    refine .inr ⟨?_, ?_⟩
    · simp [vacancy, hfree]
    · simp [vacancy, hfree]
  | cons index rest =>
    have hindex : index < p.slots.size := ((hroster.mem_free_iff index).1 (by simp [hfree])).1
    refine .inl ⟨?_, ?_⟩
    · simp only [vacancy, hfree]
    · simp only [vacancy, hfree]
      omega

/-! ## A pool behind another one -/

/-- `q` holds what `p` holds, under handles that skip the two generations behind `start`.  It may
have a spare slot. -/
structure Trails (start : UInt64) (p q : Pool) (roster : List Item) : Prop where
  front : HasRoster p roster
  behind : HasRoster q (roster.map (Item.rename (Handle.skip start)))
  spare : SpareSlot p q
  generation_eq : q.generation.toNat = p.generation.toNat + 2
  config_eq : q.config = p.config
  start_le : start ≤ p.generation

theorem Trails.start_lt (htrails : Trails start p q roster) : start.toNat + 2 < UInt64.size := by
  have hbound : q.generation.toNat < UInt64.size := q.generation.toNat_lt
  have hle := UInt64.le_iff_toNat_le.1 htrails.start_le
  rw [htrails.generation_eq] at hbound
  omega

theorem Trails.echoes (htrails : Trails start p q roster) : Echoes (Handle.skip start) p q :=
  echoes_of_hasRoster (Handle.skip_index start) (Handle.skip_injective htrails.start_lt)
    htrails.front htrails.behind

theorem Trails.find?_skip (htrails : Trails start p q roster) (hfind : p.find? h = some slot) :
    q.find? (h.skip start) = some { slot with generation := (h.skip start).generation } :=
  find?_of_renamed (Handle.skip_index start) htrails.front htrails.behind hfind

theorem Trails.lt_size (htrails : Trails start p q roster) (hfind : p.find? h = some slot) :
    h.index < q.slots.size := by
  have hlt := lt_size_of_find? (htrails.find?_skip hfind)
  rwa [Handle.skip_index] at hlt

theorem Trails.find?_skip_of_none (htrails : Trails start p q roster)
    (hfind : p.find? h = none) : q.find? (h.skip start) = none :=
  find?_of_renamed_of_none (Handle.skip_index start) (Handle.skip_injective htrails.start_lt)
    htrails.front htrails.behind hfind

theorem Trails.findDuplicate?_eq (htrails : Trails start p q roster) (u : PackageUnit)
    (installed : Bool) :
    q.findDuplicate? u installed = (p.findDuplicate? u installed).map (Handle.skip start) :=
  findDuplicate?_of_renamed (Handle.skip_index start) htrails.front htrails.behind u installed

/-! ## One transition of both pools -/

/-- The next new handle of `p` becomes the next new handle of `q`. -/
theorem Trails.arrival_eq (htrails : Trails start p q roster)
    (hroom : q.generation.toNat + 1 < UInt64.size) (u : PackageUnit) (installed : Bool) :
    q.arrival u installed = (p.arrival u installed).rename (Handle.skip start) := by
  have hgeneration := htrails.generation_eq
  have hnext : (p.generation + 1).toNat = p.generation.toNat + 1 := toNat_succ (by omega)
  have hlt : start < p.generation + 1 := by
    have hle := UInt64.le_iff_toNat_le.1 htrails.start_le
    rw [UInt64.lt_iff_toNat_lt, hnext]
    omega
  have hskip : skipGeneration start (p.generation + 1) = q.generation + 1 := by
    rw [skipGeneration_of_lt hlt (by omega)]
    refine UInt64.toNat_inj.1 ?_
    rw [toNat_add_two (by omega), toNat_succ hroom]
    omega
  have hhandle : (q.place u installed).2 = (p.place u installed).2.skip start := by
    show (⟨q.vacancy.1, q.generation + 1⟩ : Handle) =
      ⟨p.vacancy.1, skipGeneration start (p.generation + 1)⟩
    rw [hskip, htrails.spare.vacancy_eq]
  rw [arrival, hhandle, htrails.config_eq]
  rfl

theorem Trails.toNat_succ_eq (htrails : Trails start p q roster)
    (hroom : q.generation.toNat + 1 < UInt64.size) :
    (q.generation + 1).toNat = (p.generation + 1).toNat + 2 := by
  have hgeneration := htrails.generation_eq
  rw [toNat_succ hroom, toNat_succ (by omega)]
  omega

theorem Trails.start_le_succ (htrails : Trails start p q roster)
    (hroom : q.generation.toNat + 1 < UInt64.size) : start ≤ p.generation + 1 := by
  have hgeneration := htrails.generation_eq
  exact UInt64.le_trans htrails.start_le (UInt64.le_of_lt (lt_succ_of_toNat_lt (by omega)))

theorem Trails.place (htrails : Trails start p q roster)
    (hroom : q.generation.toNat + 1 < UInt64.size) (u : PackageUnit) (installed : Bool) :
    Trails start (p.place u installed).1 (q.place u installed).1
      (roster ++ [p.arrival u installed]) where
  front := htrails.front.place u installed
  behind := by
    rw [List.map_append, List.map_singleton, ← htrails.arrival_eq hroom]
    exact htrails.behind.place u installed
  spare := htrails.spare.place htrails.front htrails.behind u installed
  generation_eq := htrails.toNat_succ_eq hroom
  config_eq := htrails.config_eq
  start_le := htrails.start_le_succ hroom

theorem Trails.vacate (htrails : Trails start p q roster)
    (hroom : q.generation.toNat + 1 < UInt64.size) (hfind : p.find? h = some slot) :
    Trails start (p.vacate h.index slot.unit) (q.vacate h.index slot.unit)
      (roster.filter fun item => item.handle.index ≠ h.index) where
  front := htrails.front.vacate hfind
  behind := by
    have hvacated := htrails.behind.vacate (htrails.find?_skip hfind)
    rw [List.filter_map] at hvacated
    exact hvacated
  spare := htrails.spare.vacate (lt_size_of_find? hfind) (htrails.lt_size hfind) slot.unit
  generation_eq := htrails.toNat_succ_eq hroom
  config_eq := htrails.config_eq
  start_le := htrails.start_le_succ hroom

theorem Trails.writeStatus (htrails : Trails start p q roster) (hfind : p.find? h = some slot)
    (status : Status) :
    Trails start (p.writeStatus h.index slot status)
      (q.writeStatus h.index { slot with generation := (h.skip start).generation } status)
      (roster.map (Item.restatus h.index status)) where
  front := htrails.front.writeStatus (slot?_of_find? hfind) status
  behind := by
    have hrewritten :=
      htrails.behind.writeStatus (slot?_of_find? (htrails.find?_skip hfind)) status
    have hcommutes : (roster.map (Item.restatus h.index status)).map
        (Item.rename (Handle.skip start)) =
          (roster.map (Item.rename (Handle.skip start))).map (Item.restatus h.index status) := by
      rw [List.map_map, List.map_map]
      exact List.map_congr_left fun item _ => item.rename_restatus start h.index status
    rw [hcommutes]
    exact hrewritten
  spare := htrails.spare.writeStatus (lt_size_of_find? hfind) (htrails.lt_size hfind) _ _ _
  generation_eq := htrails.generation_eq
  config_eq := htrails.config_eq
  start_le := htrails.start_le

/-- What one pool does with an operation, the other one does with the renamed operation. -/
theorem Trails.transition (htrails : Trails start p q roster) (t : Transition p op p' r)
    (hroom : q.HasRoom [op.rename (Handle.skip start)]) :
    ∃ q' roster', Transition q (op.rename (Handle.skip start)) q'
      (r.rename (Handle.skip start)) ∧ Trails start p' q' roster' := by
  cases t with
  | @duplicate u installed h hfound =>
    have hfound' : q.findDuplicate? u installed = some (h.skip start) := by
      rw [htrails.findDuplicate?_eq, hfound, Option.map_some]
    exact ⟨q, roster, .duplicate hfound', htrails⟩
  | @placed u installed hnone =>
    have hnone' : q.findDuplicate? u installed = none := by
      rw [htrails.findDuplicate?_eq, hnone, Option.map_none]
    have hplaced := Transition.placed hnone'
    rw [htrails.arrival_eq hroom] at hplaced
    exact ⟨_, _, hplaced, htrails.place hroom u installed⟩
  | vacated hfind =>
    have hvacated := Transition.vacated (htrails.find?_skip hfind)
    exact ⟨_, _, hvacated, htrails.vacate hroom hfind⟩
  | @rewritten _ h _ _ status hhandle hchange hfind happly =>
    exact ⟨_, _, .rewritten (Op.handle?_rename hhandle) ((Op.change?_rename _ op).trans hchange)
      (htrails.find?_skip hfind) happly, htrails.writeStatus hfind status⟩
  | refused hhandle hchange hfind happly =>
    have hrefused := Transition.refused (Op.handle?_rename hhandle)
      ((Op.change?_rename _ op).trans hchange) (htrails.find?_skip hfind) happly
    rw [Op.refusal_rename] at hrefused
    exact ⟨q, roster, hrefused, htrails⟩
  | stale hhandle hfind =>
    exact ⟨q, roster, .stale (Op.handle?_rename hhandle) (htrails.find?_skip_of_none hfind),
      htrails⟩

/-! ## Runs of both pools -/

theorem Trails.run (htrails : Trails start p q roster)
    (hroom : q.HasRoom (ops.map (Op.rename (Handle.skip start)))) :
    (q.run (ops.map (Op.rename (Handle.skip start)))).2 =
        (p.run ops).2.map (Response.rename (Handle.skip start)) ∧
      ∃ roster', Trails start (p.after ops)
        (q.after (ops.map (Op.rename (Handle.skip start)))) roster' := by
  induction ops generalizing p q roster with
  | nil => exact ⟨rfl, roster, htrails⟩
  | cons op ops ih =>
    obtain ⟨q', roster', hstep, hnext⟩ := htrails.transition (transition_step p op) hroom.head
    have hrest := hroom.tail
    rw [hstep.step_eq] at hrest
    obtain ⟨hanswers, hfinal⟩ := ih hnext hrest
    constructor
    · show (q.step _).2 :: ((q.step _).1.run _).2 = _
      rw [hstep.step_eq, hanswers]
      rfl
    · rw [after_cons, List.map_cons, after_cons, hstep.step_eq]
      exact hfinal

/-- After an item has come and gone, the pool trails the one that it has never visited. -/
theorem trails_vacate_place (hroster : HasRoster p roster) (hchron : Chronological p roster)
    (hroom : p.generation.toNat + 2 < UInt64.size) (u : PackageUnit) (installed : Bool) :
    Trails p.generation p ((p.place u installed).1.vacate p.vacancy.1 u) roster where
  front := hroster
  behind := by
    have hvacated := (hroster.place u installed).vacate (find?_place hroster u installed)
    have hrenamed : roster.map (Item.rename (Handle.skip p.generation)) = roster :=
      (List.map_congr_left fun item hitem =>
        Item.rename_skip_of_le (hchron.le_counter item hitem)).trans (List.map_id roster)
    have hkept : ((roster ++ [p.arrival u installed]).filter fun item =>
        item.handle.index ≠ p.vacancy.1) = roster := by
      have hgone : (p.arrival u installed).handle.index = p.vacancy.1 := rfl
      rw [List.filter_append, List.filter_singleton, List.filter_eq_self.2]
      · simp [hgone]
      · exact fun item hitem => decide_eq_true (hroster.index_ne_vacancy hitem)
    rw [hrenamed]
    exact hkept ▸ hvacated
  spare := spareSlot_vacate_place hroster u installed
  generation_eq := by
    show (p.generation + 1 + 1).toNat = _
    have hsucc : (p.generation + 1).toNat = p.generation.toNat + 1 := toNat_succ (by omega)
    rw [toNat_succ (by omega), hsucc]
  config_eq := rfl
  start_le := UInt64.le_refl _

theorem remove_place (hroster : HasRoster p roster) (u : PackageUnit) (installed : Bool) :
    (p.place u installed).1.remove (p.place u installed).2 =
      .ok ((p.place u installed).1.vacate p.vacancy.1 u, u) := by
  rw [remove, check_of_find? (find?_place hroster u installed)]
  rfl

/-! ## Insertion and removal -/

/-- Through operations, `q` goes on as `p` does, with the handles of `p` renamed by `f`. -/
structure GoesOnLike (f : Handle → Handle) (p q : Pool) (ops : List Op) : Prop where
  /-- The handles that are new in `p` are two generations behind those that are new in `q`. -/
  renamed : ∀ h ∈ p.issued ops, p.generation < h.generation →
    (f h).index = h.index ∧ (f h).generation.toNat = h.generation.toNat + 2
  answers : (q.run (ops.map (Op.rename f))).2 = (p.run ops).2.map (Response.rename f)
  queries : Echoes f (p.after ops) (q.after (ops.map (Op.rename f)))
  generation_eq : (q.after (ops.map (Op.rename f))).generation.toNat =
    (p.after ops).generation.toNat + 2

theorem turnover_map_rename (f : Handle → Handle) (ops : List Op) :
    turnover (ops.map (Op.rename f)) = turnover ops := by
  rw [turnover, List.countP_map]
  exact List.countP_congr fun op _ => by simp

theorem Trails.goesOnLike (htrails : Trails p.generation p q roster)
    (hchron : Chronological p roster) (hroom : q.HasRoom ops) :
    GoesOnLike (Handle.skip p.generation) p q ops := by
  have hlike : q.HasRoom (ops.map (Op.rename (Handle.skip p.generation))) := by
    unfold HasRoom
    rw [turnover_map_rename]
    exact hroom
  have hfront : p.HasRoom ops := by
    have hgeneration := htrails.generation_eq
    unfold HasRoom at hroom ⊢
    omega
  obtain ⟨hanswers, roster', hfinal⟩ := htrails.run hlike
  constructor
  case renamed =>
    intro h hissued hnew
    have hle := UInt64.le_iff_toNat_le.1
      (generation_le_of_mem_issued htrails.front hchron hfront hissued)
    have hbound : h.generation.toNat + 2 < UInt64.size := by
      have hlast := hfinal.generation_eq
      have hsize : (q.after (ops.map (Op.rename (Handle.skip p.generation)))).generation.toNat <
        UInt64.size := UInt64.toNat_lt _
      omega
    refine ⟨rfl, ?_⟩
    show (skipGeneration p.generation h.generation).toNat = _
    rw [skipGeneration_of_lt hnew hbound, toNat_add_two hbound]
  case answers => exact hanswers
  case queries => exact hfinal.echoes
  case generation_eq => exact hfinal.generation_eq

/-- **An item that comes and goes leaves nothing to be seen.**  Take a pool, insert a unit that is
new in it and remove it again: the unit comes back, and from then on the pool goes on as if the item
had never been there, whatever operations follow, as long as the counter does not run over.  Handles
that were answered before are the same, and those answered later are two generations ahead.  A
handle from elsewhere, with a generation that the pool has not reached, is renamed in the
same way. -/
theorem insert_remove_unobservable (config : PoolConfig) (before : List Op) (u : PackageUnit)
    (installed : Bool)
    (hnew : ∀ item ∈ ((empty config).after before).items, ¬ item.Anticipates u installed) :
    let p := (empty config).after before
    ∃ q, (p.insert u installed).1.remove (p.insert u installed).2 = .ok (q, u) ∧
      ∀ later, turnover before + 2 + turnover later < UInt64.size →
        (∀ h ∈ (empty config).issued before, h.skip p.generation = h) ∧
          GoesOnLike (Handle.skip p.generation) p q later := by
  intro p
  obtain ⟨roster, hroster, -, hchron⟩ := exists_roster_after config before
  have hnone : p.findDuplicate? u installed = none :=
    hroster.findDuplicate?_eq_none_iff.2 fun item hitem =>
      hnew item (hroster.perm_items.mem_iff.1 hitem)
  rw [insert_of_not_findDuplicate? hnone, remove_place hroster]
  refine ⟨_, rfl, fun later hturnover => ?_⟩
  have hbefore : turnover before < UInt64.size := by omega
  have hcounter : p.generation.toNat ≤ turnover before := by
    have hle := toNat_generation_after_le (empty config) before
    rwa [toNat_generation_empty, Nat.zero_add] at hle
  have hroom : p.generation.toNat + 2 < UInt64.size := by omega
  have htrails := trails_vacate_place hroster (hchron hbefore) hroom u installed
  constructor
  · intro h hissued
    have hle := generation_le_of_mem_issued (hasRoster_empty config) (chronological_empty config)
      (hasRoom_empty hbefore) hissued
    rw [Handle.skip, skipGeneration_of_le hle]
  · refine htrails.goesOnLike (hchron hbefore) ?_
    unfold HasRoom
    rw [htrails.generation_eq]
    show p.generation.toNat + 2 + turnover later < UInt64.size
    omega

/-- A locked copy stays while another one comes and goes; the next copy gets the same slot in both
pools, in one of them under the handle `#1@2` and in the other under `#1@4`. -/
theorem insert_remove_unobservable_shell :
    let p := (empty .default).after [.insert .shell false]
    let later := [.setLock ⟨0, 1⟩ true, .insert .shell true, .setTransact ⟨1, 2⟩ true .user]
    ∃ q, (p.insert .shell true).1.remove (p.insert .shell true).2 = .ok (q, .shell) ∧
      (⟨1, 2⟩ : Handle).skip p.generation = ⟨1, 4⟩ ∧
      GoesOnLike (Handle.skip p.generation) p q later := by
  intro p later
  have hnew : ∀ item ∈ p.items, ¬ item.Anticipates .shell true := by
    intro item hitem hanticipates
    obtain rfl : item = ⟨⟨0, 1⟩, .shell, .initial false false⟩ := List.mem_singleton.1 hitem
    cases hanticipates.installed_eq
  obtain ⟨q, hremove, hlater⟩ := insert_remove_unobservable .default [.insert .shell false] .shell
    true hnew
  exact ⟨q, hremove, by decide, (hlater later (by decide)).2⟩

end Pool

end PackagePool
