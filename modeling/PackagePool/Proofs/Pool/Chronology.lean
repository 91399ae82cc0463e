import PackagePool.Proofs.Pool.Roster

/-!
# Runs and the generation counter

`Pool.after` is the pool that a list of operations leads to, and `Pool.issued` lists the handles
that these operations answered with.  Every run from the empty pool has a roster
(`exists_roster_after`).

The generation counter is a machine word, so what is said about generations holds as long as the
counter does not run over.  `Pool.HasRoom` is that condition, in terms of the number of insertions
and removals to come.  Under it the generations ascend along the roster and none exceeds the
counter: the roster is `Pool.Chronological`.
-/

namespace PackagePool

namespace Pool

/-! ## Runs -/

/-- The pool that operations lead to. -/
def after (p : Pool) (ops : List Op) : Pool :=
  (p.run ops).1

@[simp] theorem after_nil (p : Pool) : p.after [] = p := rfl

@[simp] theorem after_cons (p : Pool) (op : Op) (ops : List Op) :
    p.after (op :: ops) = (p.step op).1.after ops := rfl

theorem after_append (p : Pool) (before later : List Op) :
    p.after (before ++ later) = (p.after before).after later := by
  induction before generalizing p with
  | nil => rfl
  | cons op before ih => exact ih (p.step op).1

/-- The handle in an answer. -/
def Response.handle? : Response → Option Handle
  | inserted h => some h
  | removed _ => none
  | changed => none
  | failed _ => none

/-- The handles that operations are answered with, in order. -/
def issued (p : Pool) (ops : List Op) : List Handle :=
  (p.run ops).2.filterMap Response.handle?

@[simp] theorem issued_nil (p : Pool) : p.issued [] = [] := rfl

theorem issued_cons (p : Pool) (op : Op) (ops : List Op) :
    p.issued (op :: ops) = (p.step op).2.handle?.toList ++ (p.step op).1.issued ops := by
  show ((p.step op).2 :: ((p.step op).1.run ops).2).filterMap Response.handle? = _
  cases hanswer : (p.step op).2.handle? with
  | none => exact List.filterMap_cons_none hanswer
  | some h => exact List.filterMap_cons_some hanswer

theorem Transition.config_eq {p q : Pool} {op : Op} {r : Response} (t : Transition p op q r) :
    q.config = p.config := by
  cases t <;> rfl

/-- A pool keeps the configuration it was created with. -/
theorem config_after (p : Pool) (ops : List Op) : (p.after ops).config = p.config := by
  induction ops generalizing p with
  | nil => rfl
  | cons op ops ih =>
    rw [after_cons, ih]
    exact (transition_step p op).config_eq

/-! ## Room in the generation counter -/

/-- Whether an operation is an insertion or a removal.  No other moves the generation counter. -/
def Op.isTurnover : Op → Bool
  | insert _ _ => true
  | remove _ => true
  | _ => false

/-- The number of insertions and removals among operations. -/
def turnover (ops : List Op) : Nat :=
  ops.countP Op.isTurnover

/-- The generation counter does not run over during `ops`: the insertions and removals among them
fit below `2 ^ 64`. -/
def HasRoom (p : Pool) (ops : List Op) : Prop :=
  p.generation.toNat + turnover ops < UInt64.size

theorem turnover_append (before later : List Op) :
    turnover (before ++ later) = turnover before + turnover later :=
  List.countP_append

theorem turnover_cons (op : Op) (ops : List Op) :
    turnover (op :: ops) = turnover [op] + turnover ops :=
  turnover_append [op] ops

theorem toNat_succ_le (generation : UInt64) : (generation + 1).toNat ≤ generation.toNat + 1 := by
  rw [UInt64.toNat_add]
  exact Nat.mod_le _ _

theorem toNat_succ {generation : UInt64} (h : generation.toNat + 1 < UInt64.size) :
    (generation + 1).toNat = generation.toNat + 1 := by
  rw [UInt64.toNat_add]
  exact Nat.mod_eq_of_lt h

theorem lt_succ_of_toNat_lt {generation : UInt64} (h : generation.toNat + 1 < UInt64.size) :
    generation < generation + 1 := by
  rw [UInt64.lt_iff_toNat_lt, toNat_succ h]
  exact Nat.lt_succ_self _

variable {p q : Pool} {op : Op} {r : Response} {ops : List Op}

theorem Transition.toNat_generation_le (t : Transition p op q r) :
    q.generation.toNat ≤ p.generation.toNat + turnover [op] := by
  cases t with
  | duplicate => exact Nat.le_add_right _ _
  | placed => exact toNat_succ_le p.generation
  | vacated => exact toNat_succ_le p.generation
  | rewritten => exact Nat.le_add_right _ _
  | refused => exact Nat.le_add_right _ _
  | stale => exact Nat.le_add_right _ _

theorem HasRoom.head (hroom : p.HasRoom (op :: ops)) : p.HasRoom [op] := by
  unfold HasRoom at hroom ⊢
  rw [turnover_cons] at hroom
  omega

theorem HasRoom.tail (hroom : p.HasRoom (op :: ops)) : (p.step op).1.HasRoom ops := by
  have hgeneration := (transition_step p op).toNat_generation_le
  unfold HasRoom at hroom ⊢
  rw [turnover_cons] at hroom
  omega

theorem toNat_generation_after_le (p : Pool) (ops : List Op) :
    (p.after ops).generation.toNat ≤ p.generation.toNat + turnover ops := by
  induction ops generalizing p with
  | nil => exact Nat.le_add_right _ _
  | cons op ops ih =>
    have hstep := (transition_step p op).toNat_generation_le
    have hrest := ih (p.step op).1
    rw [after_cons, turnover_cons]
    omega

theorem HasRoom.after {before later : List Op} (hroom : p.HasRoom (before ++ later)) :
    (p.after before).HasRoom later := by
  have hbefore := toNat_generation_after_le p before
  unfold HasRoom at hroom ⊢
  rw [turnover_append] at hroom
  omega

@[simp] theorem toNat_generation_empty (config : PoolConfig) :
    (empty config).generation.toNat = 0 := rfl

theorem hasRoom_empty {config : PoolConfig} (hturnover : turnover ops < UInt64.size) :
    (empty config).HasRoom ops := by
  unfold HasRoom
  rwa [toNat_generation_empty, Nat.zero_add]

theorem Transition.generation_le (t : Transition p op q r) (hroom : p.HasRoom [op]) :
    p.generation ≤ q.generation := by
  cases t with
  | duplicate => exact UInt64.le_refl _
  | placed => exact UInt64.le_of_lt (lt_succ_of_toNat_lt hroom)
  | vacated => exact UInt64.le_of_lt (lt_succ_of_toNat_lt hroom)
  | rewritten => exact UInt64.le_refl _
  | refused => exact UInt64.le_refl _
  | stale => exact UInt64.le_refl _

/-! ## Generations along the roster -/

/-- The generations ascend along the roster from at least one up to at most the counter. -/
structure Chronological (p : Pool) (roster : List Item) : Prop where
  ascending : roster.Pairwise fun a b => a.handle.generation < b.handle.generation
  one_le : ∀ item ∈ roster, 1 ≤ item.handle.generation
  le_counter : ∀ item ∈ roster, item.handle.generation ≤ p.generation

variable {roster : List Item}

theorem chronological_empty (config : PoolConfig) : Chronological (empty config) [] where
  ascending := .nil
  one_le _ hitem := absurd hitem List.not_mem_nil
  le_counter _ hitem := absurd hitem List.not_mem_nil

theorem Chronological.place (hchron : Chronological p roster)
    (hroom : p.generation.toNat + 1 < UInt64.size) (u : PackageUnit) (installed : Bool) :
    Chronological (p.place u installed).1 (roster ++ [p.arrival u installed]) := by
  have hlt : p.generation < p.generation + 1 := lt_succ_of_toNat_lt hroom
  have hold : ∀ item ∈ roster, item.handle.generation < p.generation + 1 := fun item hitem =>
    UInt64.lt_of_le_of_lt (hchron.le_counter item hitem) hlt
  have hnew : (p.arrival u installed).handle.generation = p.generation + 1 := rfl
  constructor
  case ascending =>
    rw [List.pairwise_append]
    refine ⟨hchron.ascending, List.pairwise_singleton _ _, ?_⟩
    intro item hitem other hother
    rw [List.mem_singleton.1 hother, hnew]
    exact hold item hitem
  case one_le =>
    intro item hitem
    rcases List.mem_append.1 hitem with hitem | hitem
    · exact hchron.one_le item hitem
    · have hone : (1 : UInt64).toNat = 1 := rfl
      rw [List.mem_singleton.1 hitem, hnew, UInt64.le_iff_toNat_le]
      rw [UInt64.lt_iff_toNat_lt] at hlt
      omega
  case le_counter =>
    intro item hitem
    show item.handle.generation ≤ p.generation + 1
    rcases List.mem_append.1 hitem with hitem | hitem
    · exact UInt64.le_of_lt (hold item hitem)
    · rw [List.mem_singleton.1 hitem, hnew]
      exact UInt64.le_refl _

theorem Chronological.vacate (hchron : Chronological p roster)
    (hroom : p.generation.toNat + 1 < UInt64.size) (index : Nat) (u : PackageUnit) :
    Chronological (p.vacate index u) (roster.filter fun item => item.handle.index ≠ index) where
  ascending := hchron.ascending.filter _
  one_le item hitem := hchron.one_le item (List.mem_of_mem_filter hitem)
  le_counter item hitem :=
    UInt64.le_trans (hchron.le_counter item (List.mem_of_mem_filter hitem))
      (UInt64.le_of_lt (lt_succ_of_toNat_lt hroom))

theorem Chronological.writeStatus (hchron : Chronological p roster) (index : Nat) (slot : Slot)
    (status : Status) :
    Chronological (p.writeStatus index slot status) (roster.map (Item.restatus index status)) := by
  constructor
  case ascending => simpa [List.pairwise_map] using hchron.ascending
  case one_le =>
    intro item hitem
    obtain ⟨old, hold, rfl⟩ := List.mem_map.1 hitem
    rw [Item.restatus_handle]
    exact hchron.one_le old hold
  case le_counter =>
    intro item hitem
    obtain ⟨old, hold, rfl⟩ := List.mem_map.1 hitem
    rw [Item.restatus_handle]
    exact hchron.le_counter old hold

/-! ## The roster of a run -/

/-- Every transition leads from a roster to a roster.  What is still there stays in order, and the
item behind it is the one whose handle was answered.  The new roster is chronological if the old one
was and the counter has room. -/
theorem HasRoster.transition (hroster : HasRoster p roster) (t : Transition p op q r) :
    ∃ roster', HasRoster q roster' ∧
      (roster'.map Item.handle).Sublist (roster.map Item.handle ++ r.handle?.toList) ∧
      (p.HasRoom [op] → Chronological p roster → Chronological q roster') := by
  have hkept : (roster.map Item.handle).Sublist (roster.map Item.handle ++ r.handle?.toList) :=
    List.sublist_append_left _ _
  cases t with
  | duplicate => exact ⟨roster, hroster, hkept, fun _ hchron => hchron⟩
  | @placed u installed =>
    refine ⟨_, hroster.place u installed, ?_, fun hroom hchron => hchron.place hroom u installed⟩
    rw [List.map_append]
    exact List.Sublist.refl _
  | @vacated h slot hfind =>
    refine ⟨_, hroster.vacate hfind, ?_, fun hroom hchron => hchron.vacate hroom h.index slot.unit⟩
    exact (List.filter_sublist.map _).trans hkept
  | @rewritten _ h _ slot status _ _ hfind =>
    refine ⟨_, hroster.writeStatus (slot?_of_find? hfind) status, ?_,
      fun _ hchron => hchron.writeStatus h.index slot status⟩
    have hhandles : (roster.map (Item.restatus h.index status)).map Item.handle =
        roster.map Item.handle := by
      simp [Function.comp_def]
    rw [hhandles]
    exact hkept
  | refused => exact ⟨roster, hroster, hkept, fun _ hchron => hchron⟩
  | stale => exact ⟨roster, hroster, hkept, fun _ hchron => hchron⟩

theorem HasRoster.after (hroster : HasRoster p roster) (ops : List Op) :
    ∃ roster', HasRoster (p.after ops) roster' ∧
      (roster'.map Item.handle).Sublist (roster.map Item.handle ++ p.issued ops) ∧
      (p.HasRoom ops → Chronological p roster → Chronological (p.after ops) roster') := by
  induction ops generalizing p roster with
  | nil =>
    rw [after_nil, issued_nil, List.append_nil]
    exact ⟨roster, hroster, List.Sublist.refl _, fun _ hchron => hchron⟩
  | cons op ops ih =>
    obtain ⟨next, hnext, hkept, hstep⟩ := hroster.transition (transition_step p op)
    obtain ⟨final, hfinal, hlater, hrest⟩ := ih hnext
    rw [after_cons, issued_cons, ← List.append_assoc]
    refine ⟨final, hfinal, hlater.trans (hkept.append_right _), ?_⟩
    intro hroom hchron
    exact hrest hroom.tail (hstep hroom.head hchron)

/-- Every run from the empty pool has a roster.  It follows the order in which the handles were
answered, and it is chronological as long as there are fewer insertions and removals than the
counter can tell apart. -/
theorem exists_roster_after (config : PoolConfig) (ops : List Op) :
    ∃ roster, HasRoster ((empty config).after ops) roster ∧
      (roster.map Item.handle).Sublist ((empty config).issued ops) ∧
      (turnover ops < UInt64.size → Chronological ((empty config).after ops) roster) := by
  obtain ⟨roster, hroster, hissued, hchron⟩ := (hasRoster_empty config).after ops
  refine ⟨roster, hroster, hissued, fun hturnover => ?_⟩
  exact hchron (hasRoom_empty hturnover) (chronological_empty config)

end Pool

end PackagePool
