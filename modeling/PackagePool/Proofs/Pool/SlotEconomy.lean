import Mathlib.Order.Bounds.Defs
import PackagePool.Proofs.Pool.Deduplication

/-!
# The economy of slots

An insertion that adds an item takes a slot, and a removal frees one.  The turns of a run, seen
from outside in the handles that it answers, are its history; `Pool.turns` lists them.  A pool
keeps no history.  It has a count of live items, a generation counter, a stack of free slots and
the row of slots, and `Pool.Bookkeeping` says what each of them tells about the history: the
difference and the sum of what was taken and freed, the slots that were freed and not taken again,
and the largest number of items that were live at one time.

`Pool.Booked` says what one turn does to the four of them, and `HasRoster.booked` that every
transition is a turn of this sort or none.  The row gets longer only when no slot is free, and then
every slot is occupied; this is why its length is a number of items that were live at once, and not
only a bound on it.  The main result is `bookkeeping_after`.
-/

namespace PackagePool

namespace Pool

/-! ## The history of a run -/

/-- What an operation does to the slots: it takes one for a new item, or frees the one of an item
that it removes. -/
inductive Turn
  | taken (index : Nat)
  | freed (index : Nat)
  deriving DecidableEq

/-- Whether a slot is taken. -/
def Turn.isTaken : Turn → Bool
  | taken _ => true
  | freed _ => false

/-- The turn that an operation makes.  It takes a slot if it answers with a handle that named no
item before. -/
def turn? (p : Pool) (op : Op) : Option Turn :=
  match (p.step op).2 with
  | .inserted h => if (p.find? h).isNone then some (.taken h.index) else none
  | .removed _ => op.handle?.map fun h => .freed h.index
  | .changed => none
  | .failed _ => none

/-- The turns that operations make, in order. -/
def turns (p : Pool) : List Op → List Turn
  | [] => []
  | op :: ops => (p.turn? op).toList ++ (p.step op).1.turns ops

/-- The number of insertions that add an item. -/
def arrivals (p : Pool) (ops : List Op) : Nat :=
  (p.turns ops).countP Turn.isTaken

/-- The number of removals that succeed. -/
def departures (p : Pool) (ops : List Op) : Nat :=
  (p.turns ops).countP fun turn => ¬ turn.isTaken

/-- The slots that were freed and not taken again, after one more turn. -/
def Turn.update (spare : List Nat) : Turn → List Nat
  | taken index => spare.erase index
  | freed index => index :: spare

/-- The slots that were freed in a history and not taken again, the one freed last in front. -/
def spare (history : List Turn) : List Nat :=
  history.foldl Turn.update []

variable {p q : Pool} {roster : List Item} {op : Op} {r : Response} {ops : List Op}

theorem arrivals_cons (p : Pool) (op : Op) (ops : List Op) :
    p.arrivals (op :: ops) =
      (p.turn? op).toList.countP Turn.isTaken + (p.step op).1.arrivals ops :=
  List.countP_append

theorem departures_cons (p : Pool) (op : Op) (ops : List Op) :
    p.departures (op :: ops) =
      ((p.turn? op).toList.countP fun turn => ¬ turn.isTaken) + (p.step op).1.departures ops :=
  List.countP_append

/-! ## One turn -/

/-- What a turn, or none, does to the free slots, the row of slots and the two counters. -/
inductive Booked (p q : Pool) : Option Turn → Prop
  | idle (hfree : q.free = p.free) (hsize : q.slots.size = p.slots.size) (hlive : q.live = p.live)
      (hgeneration : q.generation = p.generation) : Booked p q none
  | reused {index : Nat} (hfree : p.free = index :: q.free) (hsize : q.slots.size = p.slots.size)
      (hlive : q.live = p.live + 1) (hgeneration : q.generation = p.generation + 1) :
      Booked p q (some (.taken index))
  | grown (hfull : p.free = []) (hfree : q.free = []) (hsize : q.slots.size = p.slots.size + 1)
      (hlive : q.live = p.live + 1) (hgeneration : q.generation = p.generation + 1) :
      Booked p q (some (.taken p.slots.size))
  | freed {index : Nat} (hfree : q.free = index :: p.free) (hsize : q.slots.size = p.slots.size)
      (hlive : p.live = q.live + 1) (hgeneration : q.generation = p.generation + 1) :
      Booked p q (some (.freed index))

theorem Booked.refl (p : Pool) : Booked p p none :=
  .idle rfl rfl rfl rfl

theorem HasRoster.booked_place (hroster : HasRoster p roster) (u : PackageUnit) (installed : Bool) :
    Booked p (p.place u installed).1 (some (.taken p.vacancy.1)) := by
  have hsize := size_place hroster.vacancy_spec.1 u installed
  cases hfree : p.free with
  | nil =>
    have hvacancy : p.vacancy = (p.slots.size, []) := by rw [vacancy, hfree]
    rw [hvacancy] at hsize ⊢
    refine .grown hfree ?_ (by omega) rfl rfl
    show p.vacancy.2 = []
    rw [hvacancy]
  | cons index rest =>
    have hvacancy : p.vacancy = (index, rest) := by rw [vacancy, hfree]
    have hlt : index < p.slots.size :=
      ((hroster.mem_free_iff index).1 (hfree ▸ List.mem_cons_self)).1
    rw [hvacancy] at hsize ⊢
    refine .reused ?_ (by omega) rfl rfl
    show p.free = index :: p.vacancy.2
    rw [hvacancy, hfree]

theorem turn?_of_findDuplicate? {u : PackageUnit} {installed : Bool} {h : Handle}
    (hfound : p.findDuplicate? u installed = some h) : p.turn? (.insert u installed) = none := by
  obtain ⟨slot, hfind, -⟩ := find?_of_findDuplicate? hfound
  simp only [turn?, (Transition.duplicate hfound).step_eq, hfind, Option.isNone_some,
    Bool.false_eq_true, if_false]

theorem HasRoster.turn?_of_not_findDuplicate? (hroster : HasRoster p roster) {u : PackageUnit}
    {installed : Bool} (hnone : p.findDuplicate? u installed = none) :
    p.turn? (.insert u installed) = some (.taken p.vacancy.1) := by
  have hvacant : p.find? (p.arrival u installed).handle = none :=
    find?_eq_none_of_slot? (item?_eq_none_iff.1 hroster.vacancy_spec.2.1)
  simp only [turn?, (Transition.placed hnone).step_eq, hvacant, Option.isNone_none, if_true]
  rfl

/-- An insertion takes a slot exactly if no item anticipates the unit. -/
theorem HasRoster.turn?_insert_isSome_iff (hroster : HasRoster p roster) (u : PackageUnit)
    (installed : Bool) :
    (p.turn? (.insert u installed)).isSome = true ↔
      ∀ item ∈ p.items, ¬ item.Anticipates u installed := by
  have hnone : p.findDuplicate? u installed = none ↔
      ∀ item ∈ p.items, ¬ item.Anticipates u installed := by
    simp only [hroster.findDuplicate?_eq_none_iff, hroster.perm_items.mem_iff]
  rw [← hnone]
  cases hfound : p.findDuplicate? u installed with
  | none => simp [hroster.turn?_of_not_findDuplicate? hfound]
  | some h => simp [turn?_of_findDuplicate? hfound]

theorem HasRoster.live_pos (hroster : HasRoster p roster) {h : Handle} {slot : Slot}
    (hfind : p.find? h = some slot) : 0 < p.live := by
  rw [hroster.live_eq]
  exact List.length_pos_of_mem (hroster.mem_of_find? hfind)

/-- Every transition is booked as the turn that it makes. -/
theorem HasRoster.booked (hroster : HasRoster p roster) (t : Transition p op q r) :
    Booked p q (p.turn? op) := by
  have hstep := t.step_eq
  cases t with
  | duplicate hfound =>
    rw [turn?_of_findDuplicate? hfound]
    exact .refl p
  | placed hnone =>
    rw [hroster.turn?_of_not_findDuplicate? hnone]
    exact hroster.booked_place _ _
  | vacated hfind =>
    rw [turn?, hstep]
    refine .freed rfl (size_vacate (lt_size_of_find? hfind) _) ?_ rfl
    exact (Nat.sub_add_cancel (hroster.live_pos hfind)).symm
  | rewritten _ _ hfind =>
    rw [turn?, hstep]
    exact .idle rfl (size_writeStatus (lt_size_of_find? hfind) _ _) rfl rfl
  | refused =>
    rw [turn?, hstep]
    exact .refl p
  | stale =>
    rw [turn?, hstep]
    exact .refl p

theorem HasRoster.booked_step (hroster : HasRoster p roster) (op : Op) :
    Booked p (p.step op).1 (p.turn? op) :=
  hroster.booked (transition_step p op)

/-- Only insertions and removals make turns. -/
theorem Transition.isTurnover_of_turn? (t : Transition p op q r) {turn : Turn}
    (hturn : p.turn? op = some turn) : op.isTurnover = true := by
  rw [turn?, t.step_eq] at hturn
  cases t with
  | duplicate => rfl
  | placed => rfl
  | vacated => rfl
  | rewritten => cases hturn
  | refused => cases hturn
  | stale => cases hturn

theorem Transition.index_lt (t : Transition p op q r) (hroster : HasRoster p roster) {h : Handle}
    (hanswer : r.handle? = some h) : h.index < q.slots.size := by
  cases t with
  | duplicate hfound =>
    obtain rfl := Option.some.inj hanswer
    obtain ⟨slot, hfind, -⟩ := find?_of_findDuplicate? hfound
    exact lt_size_of_find? hfind
  | @placed u installed =>
    obtain rfl := Option.some.inj hanswer
    rw [size_place hroster.vacancy_spec.1]
    exact Nat.lt_of_lt_of_le (Nat.lt_succ_self _) (Nat.le_max_right _ _)
  | vacated => cases hanswer
  | rewritten => cases hanswer
  | refused => cases hanswer
  | stale => cases hanswer

/-! ## What a turn does to each of the books -/

variable {turn : Option Turn}

theorem Booked.free_eq (h : Booked p q turn) : q.free = turn.toList.foldl Turn.update p.free := by
  cases h with
  | idle hfree => exact hfree
  | reused hfree => simp [hfree, Turn.update]
  | grown hfull hfree => simp [hfull, hfree, Turn.update]
  | freed hfree => exact hfree

theorem Booked.live_add (h : Booked p q turn) :
    q.live + (turn.toList.countP fun turn => ¬ turn.isTaken) =
      p.live + turn.toList.countP Turn.isTaken := by
  cases h with
  | idle _ _ hlive => exact hlive
  | reused _ _ hlive => exact hlive
  | grown _ _ _ hlive => exact hlive
  | freed _ _ hlive => exact hlive.symm

theorem Booked.generation_eq (h : Booked p q turn) :
    q.generation = if turn.isSome then p.generation + 1 else p.generation := by
  cases h with
  | idle _ _ _ hgeneration => exact hgeneration
  | reused _ _ _ hgeneration => exact hgeneration
  | grown _ _ _ _ hgeneration => exact hgeneration
  | freed _ _ _ hgeneration => exact hgeneration

theorem Booked.size_le (h : Booked p q turn) : p.slots.size ≤ q.slots.size := by
  cases h with
  | idle _ hsize => exact Nat.le_of_eq hsize.symm
  | reused _ hsize => exact Nat.le_of_eq hsize.symm
  | grown _ _ hsize => exact Nat.le_of_lt (hsize ▸ Nat.lt_succ_self _)
  | freed _ hsize => exact Nat.le_of_eq hsize.symm

/-- The row of slots gets longer only by a turn that leaves no slot free. -/
theorem Booked.size_eq_or_full (h : Booked p q turn) :
    q.slots.size = p.slots.size ∨ q.free = [] := by
  cases h with
  | idle _ hsize => exact .inl hsize
  | reused _ hsize => exact .inl hsize
  | grown _ hfree => exact .inr hfree
  | freed _ hsize => exact .inl hsize

theorem Booked.index_eq {index : Nat} (h : Booked p q (some (.taken index))) :
    index = p.free.head?.getD p.slots.size := by
  cases h with
  | reused hfree => rw [hfree, List.head?_cons, Option.getD_some]
  | grown hfull => rw [hfull, List.head?_nil, Option.getD_none]

/-! ## Runs -/

/-- The stack of free slots is what the history says to be spare. -/
theorem HasRoster.free_after (hroster : HasRoster p roster) (ops : List Op) :
    (p.after ops).free = (p.turns ops).foldl Turn.update p.free := by
  induction ops generalizing p roster with
  | nil => rfl
  | cons op ops ih =>
    obtain ⟨next, hnext, -⟩ := hroster.transition (transition_step p op)
    rw [after_cons, ih hnext, turns, List.foldl_append, (hroster.booked_step op).free_eq]

theorem HasRoster.live_after (hroster : HasRoster p roster) (ops : List Op) :
    (p.after ops).live + p.departures ops = p.live + p.arrivals ops := by
  induction ops generalizing p roster with
  | nil => rfl
  | cons op ops ih =>
    obtain ⟨next, hnext, -⟩ := hroster.transition (transition_step p op)
    have hturn := (hroster.booked_step op).live_add
    have hrest := ih hnext
    rw [after_cons, arrivals_cons, departures_cons]
    omega

theorem HasRoster.toNat_generation_step (hroster : HasRoster p roster) (hroom : p.HasRoom [op]) :
    (p.step op).1.generation.toNat = p.generation.toNat + (p.turn? op).toList.length := by
  rw [(hroster.booked_step op).generation_eq]
  cases hturn : p.turn? op with
  | none => rfl
  | some turn =>
    have hturnover : turnover [op] = 1 := by
      simp [turnover, (transition_step p op).isTurnover_of_turn? hturn]
    rw [HasRoom, hturnover] at hroom
    exact toNat_succ hroom

theorem HasRoster.toNat_generation_after (hroster : HasRoster p roster) (hroom : p.HasRoom ops) :
    (p.after ops).generation.toNat = p.generation.toNat + (p.turns ops).length := by
  induction ops generalizing p roster with
  | nil => rfl
  | cons op ops ih =>
    obtain ⟨next, hnext, -⟩ := hroster.transition (transition_step p op)
    rw [after_cons, ih hnext hroom.tail, hroster.toNat_generation_step hroom.head, turns,
      List.length_append, Nat.add_assoc]

theorem HasRoster.size_le_after (hroster : HasRoster p roster) (ops : List Op) :
    p.slots.size ≤ (p.after ops).slots.size := by
  induction ops generalizing p roster with
  | nil => exact Nat.le_refl _
  | cons op ops ih =>
    obtain ⟨next, hnext, -⟩ := hroster.transition (transition_step p op)
    exact Nat.le_trans (hroster.booked_step op).size_le (ih hnext)

theorem HasRoster.index_lt_of_mem_issued (hroster : HasRoster p roster) {h : Handle}
    (hissued : h ∈ p.issued ops) : h.index < (p.after ops).slots.size := by
  induction ops generalizing p roster with
  | nil => cases hissued
  | cons op ops ih =>
    have hstep := transition_step p op
    obtain ⟨next, hnext, -⟩ := hroster.transition hstep
    rw [issued_cons, List.mem_append, Option.mem_toList] at hissued
    rcases hissued with hnow | hlater
    · exact Nat.lt_of_lt_of_le (hstep.index_lt hroster hnow) (hnext.size_le_after ops)
    · exact ih hnext hlater

/-! ## The longest the row has to be -/

/-- Every slot is occupied or free. -/
theorem HasRoster.live_add_length_free (hroster : HasRoster p roster) :
    p.live + p.free.length = p.slots.size := by
  have hfree : p.free.Perm
      ((List.range p.slots.size).filter fun index => ¬ (p.item? index).isSome) := by
    refine (List.perm_ext_iff_of_nodup hroster.free_nodup (List.nodup_range.filter _)).2 ?_
    intro index
    rw [hroster.mem_free_iff, List.mem_filter, List.mem_range]
    simp
  have hlive : p.live = (List.range p.slots.size).countP fun index => (p.item? index).isSome := by
    rw [hroster.live_eq, hroster.perm_items.length_eq, items, List.length_filterMap_eq_countP]
  rw [hfree.length_eq, ← List.countP_eq_length_filter, hlive,
    ← List.length_eq_countP_add_countP, List.length_range]

/-- If the row of slots has become longer, then at some point it was that long and full. -/
theorem HasRoster.exists_full (hroster : HasRoster p roster) (ops : List Op) :
    (p.after ops).slots.size = p.slots.size ∨
      ∃ before, before <+: ops ∧ (p.after before).free = [] ∧
        (p.after before).slots.size = (p.after ops).slots.size := by
  induction ops generalizing p roster with
  | nil => exact .inl rfl
  | cons op ops ih =>
    obtain ⟨next, hnext, -⟩ := hroster.transition (transition_step p op)
    rcases ih hnext with hsame | ⟨before, hprefix, hfull⟩
    · rcases (hroster.booked_step op).size_eq_or_full with hsize | hfree
      · exact .inl (hsame.trans hsize)
      · exact .inr ⟨[op], ⟨ops, rfl⟩, hfree, hsame.symm⟩
    · exact .inr ⟨op :: before, List.cons_prefix_cons.2 ⟨rfl, hprefix⟩, hfull⟩

theorem length_items_after (config : PoolConfig) (ops : List Op) :
    ((empty config).after ops).items.length = ((empty config).after ops).size := by
  obtain ⟨roster, hroster, -⟩ := exists_roster_after config ops
  rw [← hroster.perm_items.length_eq, size, hroster.live_eq]

/-- The row of slots is as long as the largest number of items that were live at once. -/
theorem isGreatest_size_slots (config : PoolConfig) (ops : List Op) :
    IsGreatest {n | ∃ before, before <+: ops ∧ n = ((empty config).after before).items.length}
      ((empty config).after ops).slots.size := by
  constructor
  · rcases (hasRoster_empty config).exists_full ops with hsame | ⟨before, hprefix, hfree, hsize⟩
    · exact ⟨[], List.nil_prefix, hsame⟩
    · obtain ⟨roster, hroster, -⟩ := exists_roster_after config before
      have hslots := hroster.live_add_length_free
      rw [hfree, List.length_nil, Nat.add_zero] at hslots
      exact ⟨before, hprefix, by rw [length_items_after, size, hslots, hsize]⟩
  · rintro n ⟨before, ⟨later, rfl⟩, rfl⟩
    obtain ⟨roster, hroster, -⟩ := exists_roster_after config before
    have hslots := hroster.live_add_length_free
    have hlater := hroster.size_le_after later
    rw [length_items_after, size, after_append]
    omega

/-! ## The books of a run -/

/-- What the pool that a run of `ops` on the empty pool leads to tells about this run. -/
structure Bookkeeping (config : PoolConfig) (ops : List Op) : Prop where
  /-- No more is freed than was taken: the count of live items never falls below zero. -/
  departures_le : (empty config).departures ops ≤ (empty config).arrivals ops
  size_eq : ((empty config).after ops).size =
    (empty config).arrivals ops - (empty config).departures ops
  length_items : ((empty config).after ops).items.length = ((empty config).after ops).size
  generation_eq : ((empty config).after ops).generation.toNat =
    (empty config).arrivals ops + (empty config).departures ops
  /-- There are as many slots as items that were live at one point of the run, and never were there
  more live items than that. -/
  isGreatest_slots :
    IsGreatest {n | ∃ before, before <+: ops ∧ n = ((empty config).after before).items.length}
      ((empty config).after ops).slots.size
  /-- An insertion counts as an arrival exactly if no item has the identity, the origin and the
  installed facet already. -/
  arrival_iff : ∀ before u installed later, ops = before ++ .insert u installed :: later →
    ((((empty config).after before).turn? (.insert u installed)).isSome = true ↔
      ∀ item ∈ ((empty config).after before).items, ¬ item.Anticipates u installed)
  /-- The slot that is taken is the one freed last among those not taken again, and the one behind
  the last if there is none. -/
  index_eq : ∀ before op later index, ops = before ++ op :: later →
    ((empty config).after before).turn? op = some (.taken index) →
    index = (spare ((empty config).turns before)).head?.getD
      ((empty config).after before).slots.size
  index_lt : ∀ h ∈ (empty config).issued ops, h.index < ((empty config).after ops).slots.size

/-- **A pool keeps books on its run.**  As long as there are fewer insertions and removals than the
generation counter can tell apart, the number of items is what was inserted less what was removed,
the generation is the sum of both, the slots are as many as items were live at once, and each new
item takes the slot that was freed last. -/
theorem bookkeeping_after (config : PoolConfig) (ops : List Op)
    (hturnover : turnover ops < UInt64.size) : Bookkeeping config ops := by
  have hempty := hasRoster_empty config
  have hlive : ((empty config).after ops).size + (empty config).departures ops =
      0 + (empty config).arrivals ops := hempty.live_after ops
  have hgeneration := hempty.toNat_generation_after (hasRoom_empty hturnover)
  constructor
  case departures_le => omega
  case size_eq => omega
  case length_items => exact length_items_after config ops
  case generation_eq =>
    rw [hgeneration, toNat_generation_empty, Nat.zero_add]
    exact List.length_eq_countP_add_countP Turn.isTaken
  case isGreatest_slots => exact isGreatest_size_slots config ops
  case arrival_iff =>
    intro before u installed later _
    obtain ⟨roster, hroster, -⟩ := exists_roster_after config before
    exact hroster.turn?_insert_isSome_iff u installed
  case index_eq =>
    intro before op later index _ hturn
    obtain ⟨roster, hroster, -⟩ := exists_roster_after config before
    have hfree : ((empty config).after before).free = spare ((empty config).turns before) :=
      hempty.free_after before
    have hbooked := hroster.booked_step op
    rw [hturn] at hbooked
    rw [← hfree]
    exact hbooked.index_eq
  case index_lt => exact fun h hissued => hempty.index_lt_of_mem_issued hissued

/-- Of two freed slots the next item takes the one freed last, and a duplicate takes none. -/
theorem bookkeeping_after_reuse :
    let before : List Op :=
      [.insert .shell false, .insert .shell true, .remove ⟨0, 1⟩, .remove ⟨1, 2⟩]
    let ops := before ++ [.insert .shell false, .insert .shell false]
    turnover ops < UInt64.size ∧ (empty .default).arrivals ops = 3 ∧
      (empty .default).departures ops = 2 ∧ ((empty .default).after ops).size = 3 - 2 ∧
      ((empty .default).after ops).generation.toNat = 3 + 2 ∧
      spare ((empty .default).turns before) = [1, 0] ∧
      ((empty .default).after before).turn? (.insert .shell false) = some (.taken 1) ∧
      1 = (spare ((empty .default).turns before)).head?.getD
        ((empty .default).after before).slots.size := by
  intro before ops
  have hturnover : turnover ops < UInt64.size := by decide
  have harrivals : (empty .default).arrivals ops = 3 := by decide +kernel
  have hdepartures : (empty .default).departures ops = 2 := by decide +kernel
  have hturn : ((empty .default).after before).turn? (.insert .shell false) = some (.taken 1) := by
    decide +kernel
  have hbooks := bookkeeping_after .default ops hturnover
  have hsize := hbooks.size_eq
  have hgeneration := hbooks.generation_eq
  rw [harrivals, hdepartures] at hsize hgeneration
  exact ⟨hturnover, harrivals, hdepartures, hsize, hgeneration, by decide +kernel, hturn,
    hbooks.index_eq before (.insert .shell false) [.insert .shell false] 1 rfl hturn⟩

end Pool

end PackagePool
