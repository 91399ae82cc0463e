import PackagePool.Proofs.Pool.Deduplication
import PackagePool.Proofs.Pool.Projection

/-!
# The order of status operations

Since every item is a machine of its own, a status operation and an operation that leaves the item
of its handle alone can change places: the pool after both is the same, and so are both answers
(`Transition.diamond`).  What leaves an item alone is said by `Pool.Spares`: an operation through
another handle, and an insertion, unless it is the one that makes the item.

`Pool.Reordering` is the closure of such exchanges.  It covers every rearrangement of status
operations that keeps the order of those through one handle (`Rearranged.reordering`), and it lets
status operations pass insertions and removals of other items as well.

The main result, `items_evolve_independently`, puts this together with the life of a single item.
-/

namespace PackagePool

namespace Pool

variable {p q : Pool} {roster : List Item} {op : Op} {r : Response} {h other : Handle} {slot : Slot}
  {status : Status} {u : PackageUnit} {installed : Bool} {index : Nat}

/-! ## Rewriting one status commutes with other changes -/

theorem vacancy_writeStatus (hslot : p.slot? index = some slot) (status : Status) :
    (p.writeStatus index slot status).vacancy = p.vacancy := by
  have hfree : (p.writeStatus index slot status).free = p.free := rfl
  rw [vacancy, vacancy, hfree, size_writeStatus (lt_size_of_slot? hslot)]

theorem place_writeStatus (hslot : p.slot? index = some slot) (hne : index ≠ p.vacancy.1)
    (hle : p.vacancy.1 ≤ p.slots.size) (status : Status) (u : PackageUnit) (installed : Bool) :
    (p.writeStatus index slot status).place u installed =
      ((p.place u installed).1.writeStatus index slot status, (p.place u installed).2) := by
  have hslots := writeSlot_comm hne (lt_size_of_slot? hslot) hle (some { slot with status })
    (some ⟨u, .initial installed (p.config.isLocked u.resolvable), p.generation + 1⟩)
  simp only [place, vacancy_writeStatus hslot]
  simp only [writeStatus, hslots]

theorem vacate_writeStatus (hslot : p.slot? index = some slot) {gone : Nat} (hne : index ≠ gone)
    (hlt : gone < p.slots.size) (status : Status) (u : PackageUnit) :
    (p.writeStatus index slot status).vacate gone u =
      (p.vacate gone u).writeStatus index slot status := by
  have hslots := writeSlot_comm hne (lt_size_of_slot? hslot) (Nat.le_of_lt hlt)
    (some { slot with status }) none
  simp only [vacate, writeStatus, hslots]

theorem writeStatus_comm (hslot : p.slot? index = some slot) {index' : Nat} {slot' : Slot}
    (hslot' : p.slot? index' = some slot') (hne : index ≠ index') (status status' : Status) :
    (p.writeStatus index slot status).writeStatus index' slot' status' =
      (p.writeStatus index' slot' status').writeStatus index slot status := by
  have hslots := writeSlot_comm hne (lt_size_of_slot? hslot)
    (Nat.le_of_lt (lt_size_of_slot? hslot')) (some { slot with status })
    (some { slot' with status := status' })
  simp only [writeStatus, hslots]

theorem find?_writeStatus_self (hfind : p.find? h = some slot) (status : Status) :
    (p.writeStatus h.index slot status).find? h = some { slot with status } := by
  obtain ⟨hslot, hgeneration⟩ := find?_eq_some_iff.1 hfind
  refine find?_eq_some_iff.2 ⟨?_, hgeneration⟩
  rw [slot?_writeStatus hslot, if_pos rfl]

/-- Another handle finds the same before and after a status is rewritten. -/
theorem find?_writeStatus_of_ne (hfind : p.find? h = some slot) (hne : other ≠ h)
    (status : Status) : (p.writeStatus h.index slot status).find? other = p.find? other := by
  by_cases hindex : other.index = h.index
  · rw [find?_eq_none_of_ne (find?_writeStatus_self hfind status) hindex hne,
      find?_eq_none_of_ne hfind hindex hne]
  · refine find?_congr ?_
    rw [slot?_writeStatus (slot?_of_find? hfind), if_neg hindex]

/-- The search for a duplicate does not look at what a change of status can touch. -/
theorem findDuplicate?_writeStatus (hslot : p.slot? index = some slot)
    (hinstalled : status.installed = slot.status.installed) :
    (p.writeStatus index slot status).findDuplicate? u installed =
      p.findDuplicate? u installed := by
  have hsame : ({ slot with status } : Slot).isDuplicate u installed =
      slot.isDuplicate u installed := by
    simp only [Slot.isDuplicate, hinstalled]
  have hlookup : ∀ i, ((p.writeStatus index slot status).slot? i).bind (fun found =>
      if found.isDuplicate u installed then some (⟨i, found.generation⟩ : Handle) else none) =
        (p.slot? i).bind fun found =>
          if found.isDuplicate u installed then some ⟨i, found.generation⟩ else none := by
    intro i
    rw [slot?_writeStatus hslot]
    by_cases hi : i = index
    · rw [if_pos hi, hi, hslot, Option.bind_some, Option.bind_some, hsame]
    · rw [if_neg hi]
  have hnames : (p.writeStatus index slot status).nameIndex = p.nameIndex := rfl
  rw [findDuplicate?, findDuplicate?, hnames]
  exact congrArg (fun look => (p.nameIndex.entries u.name).findSome? look) (funext hlookup)

/-! ## Operations that leave an item alone -/

/-- The operation leaves the item that `h` names alone: it goes through another handle, or it
inserts a unit and makes no item under `h`. -/
structure Spares (p : Pool) (h : Handle) (op : Op) : Prop where
  handle_ne : op.handle? ≠ some h
  not_made : ∀ u installed, op = .insert u installed → p.findDuplicate? u installed = none →
    (p.place u installed).2 ≠ h

theorem spares_of_change? (hhandle : op.handle? = some other) (hne : other ≠ h) :
    p.Spares h op where
  handle_ne heq := hne (Option.some.inj (hhandle.symm.trans heq))
  not_made _ _ hinsert := by
    subst hinsert
    cases hhandle

theorem Spares.ne_of_handle? (hspares : p.Spares h op) (hhandle : op.handle? = some other) :
    other ≠ h := by
  rintro rfl
  exact hspares.handle_ne hhandle

/-- A handle finds the same before and after a transition that leaves its item alone. -/
theorem Transition.find?_of_spares (t : Transition p op q r) (hroster : HasRoster p roster)
    (hspares : p.Spares h op) : q.find? h = p.find? h := by
  cases t with
  | duplicate => rfl
  | @placed u installed hnone =>
    by_cases hindex : h.index = p.vacancy.1
    · have hvacant : p.slot? h.index = none := by
        rw [hindex]
        exact item?_eq_none_iff.1 hroster.vacancy_spec.2.1
      have hforeign : h ≠ (p.place u installed).2 := (hspares.not_made u installed rfl hnone).symm
      rw [find?_eq_none_of_slot? hvacant,
        find?_eq_none_of_ne (find?_place hroster u installed) hindex hforeign]
    · refine find?_congr ?_
      rw [slot?_place hroster.vacancy_spec.1, if_neg hindex]
  | @vacated gone found hfind =>
    have hvacated := slot?_vacate (lt_size_of_find? hfind) found.unit h.index
    by_cases hindex : h.index = gone.index
    · rw [if_pos hindex] at hvacated
      rw [find?_eq_none_of_slot? hvacated,
        find?_eq_none_of_ne hfind hindex (hspares.ne_of_handle? rfl).symm]
    · rw [if_neg hindex] at hvacated
      exact find?_congr hvacated
  | rewritten hhandle _ hfind =>
    exact find?_writeStatus_of_ne hfind (hspares.ne_of_handle? hhandle).symm _
  | refused => rfl
  | stale => rfl

/-- A transition that leaves an item alone can be made just as well after a change of its status. -/
theorem Transition.writeStatus (t : Transition p op q r) (hroster : HasRoster p roster)
    (hspares : p.Spares h op) (hfind : p.find? h = some slot)
    (hinstalled : status.installed = slot.status.installed) :
    Transition (p.writeStatus h.index slot status) op (q.writeStatus h.index slot status) r := by
  have hslot := slot?_of_find? hfind
  have hsame : ∀ other, other ≠ h →
      (p.writeStatus h.index slot status).find? other = p.find? other :=
    fun other hne => find?_writeStatus_of_ne hfind hne status
  cases t with
  | duplicate hfound =>
    refine .duplicate ?_
    rw [findDuplicate?_writeStatus hslot hinstalled]
    exact hfound
  | @placed u installed hnone =>
    have hne := hroster.index_ne_vacancy (hroster.mem_of_find? hfind)
    have hplace := place_writeStatus hslot hne hroster.vacancy_spec.1 status u installed
    have hnone' := (findDuplicate?_writeStatus hslot hinstalled).trans hnone
    have hplaced := Transition.placed hnone'
    rw [arrival, hplace] at hplaced
    exact hplaced
  | @vacated gone found hgone =>
    have hne := hspares.ne_of_handle? rfl
    have hindex : h.index ≠ gone.index := fun heq =>
      hne (eq_of_find?_of_index hfind hgone heq).symm
    have hvacated := Transition.vacated ((hsame gone hne).trans hgone)
    rw [vacate_writeStatus hslot hindex (lt_size_of_find? hgone)] at hvacated
    exact hvacated
  | @rewritten _ touched change found changed hhandle hchange htouched happly =>
    have hne := hspares.ne_of_handle? hhandle
    have hindex : h.index ≠ touched.index := fun heq =>
      hne (eq_of_find?_of_index hfind htouched heq).symm
    have hrewritten :=
      Transition.rewritten hhandle hchange ((hsame touched hne).trans htouched) happly
    rw [writeStatus_comm hslot (slot?_of_find? htouched) hindex] at hrewritten
    exact hrewritten
  | refused hhandle hchange htouched happly =>
    have hne := hspares.ne_of_handle? hhandle
    exact .refused hhandle hchange ((hsame _ hne).trans htouched) happly
  | stale hhandle hnone =>
    have hne := hspares.ne_of_handle? hhandle
    exact .stale hhandle ((hsame _ hne).trans hnone)

/-- A status operation and an operation that leaves its item alone may be carried out in either
order, with the same answers and the same pool in the end. -/
theorem Transition.diamond {a b : Op} {pa pb : Pool} {ra rb : Response}
    (ta : Transition p a pa ra) (tb : Transition p b pb rb) (hroster : HasRoster p roster)
    (hhandle : a.handle? = some h) (hchange : a.change?.isSome = true) (hspares : p.Spares h b) :
    ∃ both, Transition pa b both rb ∧ Transition pb a both ra := by
  have hsame := tb.find?_of_spares hroster hspares
  cases ta with
  | duplicate => cases hhandle
  | placed => cases hhandle
  | vacated => cases hchange
  | rewritten hhandle' hasked hfind happly =>
    obtain rfl := Option.some.inj (hhandle'.symm.trans hhandle)
    exact ⟨_, tb.writeStatus hroster hspares hfind (StatusChange.installed_of_apply happly),
      .rewritten hhandle hasked (hsame.trans hfind) happly⟩
  | refused hhandle' hasked hfind happly =>
    obtain rfl := Option.some.inj (hhandle'.symm.trans hhandle)
    exact ⟨_, tb, .refused hhandle hasked (hsame.trans hfind) happly⟩
  | stale hhandle' hfind =>
    obtain rfl := Option.some.inj (hhandle'.symm.trans hhandle)
    exact ⟨_, tb, .stale hhandle (hsame.trans hfind)⟩

/-! ## Runs that differ in the order only -/

/-- The operations of a run with their answers. -/
def outcomes (p : Pool) (ops : List Op) : List (Op × Response) :=
  ops.zip (p.run ops).2

theorem outcomes_cons (p : Pool) (op : Op) (ops : List Op) :
    p.outcomes (op :: ops) = (op, (p.step op).2) :: (p.step op).1.outcomes ops := rfl

/-- Two runs end in the same pool, and the operations through one handle, and likewise the
insertions, are the same in both, in the same order and with the same answers. -/
structure RunsAlike (p : Pool) (xs ys : List Op) : Prop where
  after_eq : p.after xs = p.after ys
  outcomes_eq : ∀ target : Option Handle,
    ((p.outcomes xs).filter fun outcome => outcome.1.handle? = target) =
      (p.outcomes ys).filter fun outcome => outcome.1.handle? = target

/-- The list of operations can be brought into the other order by exchanges of neighbours, of which
one is a status operation and the other leaves the item of its handle alone. -/
inductive Reordering : Pool → List Op → List Op → Prop
  | refl (p : Pool) (ops : List Op) : Reordering p ops ops
  | symm {p : Pool} {xs ys : List Op} : Reordering p xs ys → Reordering p ys xs
  | trans {p : Pool} {xs ys zs : List Op} :
      Reordering p xs ys → Reordering p ys zs → Reordering p xs zs
  | cons {p : Pool} (op : Op) {xs ys : List Op} :
      Reordering (p.step op).1 xs ys → Reordering p (op :: xs) (op :: ys)
  | swap {p : Pool} {a b : Op} {h : Handle} (rest : List Op) (hhandle : a.handle? = some h)
      (hchange : a.change?.isSome = true) (hspares : p.Spares h b) :
      Reordering p (a :: b :: rest) (b :: a :: rest)

theorem RunsAlike.cons {xs ys : List Op} (halike : (p.step op).1.RunsAlike xs ys) :
    p.RunsAlike (op :: xs) (op :: ys) where
  after_eq := halike.after_eq
  outcomes_eq target := by
    rw [outcomes_cons, outcomes_cons, List.filter_cons, List.filter_cons, halike.outcomes_eq]

theorem runsAlike_swap {a b : Op} (hroster : HasRoster p roster) (rest : List Op)
    (hhandle : a.handle? = some h) (hchange : a.change?.isSome = true) (hspares : p.Spares h b) :
    p.RunsAlike (a :: b :: rest) (b :: a :: rest) := by
  have hne : b.handle? ≠ a.handle? := by
    rw [hhandle]
    exact hspares.handle_ne
  obtain ⟨both, hb, ha⟩ :=
    (transition_step p a).diamond (transition_step p b) hroster hhandle hchange hspares
  constructor
  case after_eq => rw [after_cons, after_cons, after_cons, after_cons, hb.step_eq, ha.step_eq]
  case outcomes_eq =>
    intro target
    rw [outcomes_cons, outcomes_cons, outcomes_cons, outcomes_cons, hb.step_eq, ha.step_eq]
    by_cases htarget : a.handle? = target
    · have hother : ¬ b.handle? = target := fun heq => hne (heq.trans htarget.symm)
      simp [htarget, hother]
    · simp [List.filter_cons, htarget]

theorem Reordering.runsAlike {xs ys : List Op} (hreorder : Reordering p xs ys)
    (hroster : HasRoster p roster) : p.RunsAlike xs ys := by
  induction hreorder generalizing roster with
  | refl => exact ⟨rfl, fun _ => rfl⟩
  | symm _ ih =>
    obtain ⟨hafter, houtcomes⟩ := ih hroster
    exact ⟨hafter.symm, fun target => (houtcomes target).symm⟩
  | trans _ _ first second =>
    obtain ⟨hafter, houtcomes⟩ := first hroster
    obtain ⟨hafter', houtcomes'⟩ := second hroster
    exact ⟨hafter.trans hafter', fun target => (houtcomes target).trans (houtcomes' target)⟩
  | @cons p op _ _ _ ih =>
    obtain ⟨next, hnext, -⟩ := hroster.transition (transition_step p op)
    exact (ih hnext).cons
  | swap rest hhandle hchange hspares =>
    exact runsAlike_swap hroster rest hhandle hchange hspares

/-! ## Rearranging status operations -/

theorem handle?_of_change? (hchange : op.change?.isSome = true) : ∃ h, op.handle? = some h := by
  cases op with
  | insert => cases hchange
  | remove => cases hchange
  | setTransact h => exact ⟨h, rfl⟩
  | forceTransact h => exact ⟨h, rfl⟩
  | setLock h => exact ⟨h, rfl⟩
  | changeStatus h => exact ⟨h, rfl⟩

/-- A status operation may be carried out before status operations through other handles. -/
theorem reordering_move_front {a : Op} (hhandle : a.handle? = some h) (front rest : List Op)
    (hfront : ∀ op ∈ front, op.change?.isSome = true ∧ op.handle? ≠ some h) (p : Pool) :
    Reordering p (front ++ a :: rest) (a :: (front ++ rest)) := by
  induction front generalizing p with
  | nil => exact .refl p _
  | cons op front ih =>
    obtain ⟨⟨hop, hne⟩, hfront⟩ := List.forall_mem_cons.1 hfront
    obtain ⟨other, hother⟩ := handle?_of_change? hop
    have hapart : h ≠ other := by
      rintro rfl
      exact hne hother
    have hinner := Reordering.cons op (ih hfront (p.step op).1)
    exact hinner.trans (.swap (front ++ rest) hother hop (spares_of_change? hhandle hapart))

/-- Both lists hold status operations only, and those through one handle are the same in both, in
the same order. -/
structure Rearranged (xs ys : List Op) : Prop where
  left : ∀ op ∈ xs, op.change?.isSome = true
  right : ∀ op ∈ ys, op.change?.isSome = true
  filter_eq : ∀ h : Handle, (xs.filter fun op => op.handle? = some h) =
    ys.filter fun op => op.handle? = some h

theorem Rearranged.eq_nil {xs : List Op} (hxs : Rearranged xs []) : xs = [] := by
  refine List.eq_nil_iff_forall_not_mem.2 fun op hop => ?_
  obtain ⟨h, hhandle⟩ := handle?_of_change? (hxs.left op hop)
  have hmem : op ∈ xs.filter fun op => op.handle? = some h :=
    List.mem_filter.2 ⟨hop, decide_eq_true hhandle⟩
  rw [hxs.filter_eq h] at hmem
  cases hmem

/-- The first operation of one list stands in the other one behind operations through other handles
only, and the lists without it are rearranged again. -/
theorem Rearranged.exists_split {xs ys : List Op} {y : Op} (hxs : Rearranged xs (y :: ys))
    (hhandle : y.handle? = some h) :
    ∃ front rest, xs = front ++ y :: rest ∧ (∀ op ∈ front, op.handle? ≠ some h) ∧
      Rearranged (front ++ rest) ys := by
  have hfirst := hxs.filter_eq h
  rw [List.filter_cons_of_pos (by simpa using hhandle), List.filter_eq_cons_iff] at hfirst
  obtain ⟨front, rest, rfl, hfront, -, hrest⟩ := hfirst
  refine ⟨front, rest, rfl, fun op hop => by simpa using hfront op hop, ?_, ?_, ?_⟩
  · intro op hop
    rw [List.mem_append] at hop
    exact hxs.left op (List.mem_append.2 (hop.imp id (List.mem_cons_of_mem y)))
  · exact fun op hop => hxs.right op (List.mem_cons_of_mem y hop)
  · intro target
    by_cases hsame : target = h
    · subst hsame
      rw [List.filter_append, List.filter_eq_nil_iff.2 hfront, List.nil_append]
      exact hrest
    · have hne : ¬ y.handle? = some target := fun heq =>
        hsame (Option.some.inj (heq.symm.trans hhandle))
      simpa [List.filter_append, List.filter_cons, hne] using hxs.filter_eq target

theorem Rearranged.reordering {xs ys : List Op} (hxs : Rearranged xs ys) (p : Pool) :
    Reordering p xs ys := by
  induction ys generalizing xs p with
  | nil =>
    rw [hxs.eq_nil]
    exact .refl p []
  | cons y ys ih =>
    obtain ⟨h, hhandle⟩ := handle?_of_change? (hxs.right y List.mem_cons_self)
    obtain ⟨front, rest, rfl, hfront, hothers⟩ := hxs.exists_split hhandle
    have hmove := reordering_move_front hhandle front rest
      (fun op hop => ⟨hxs.left op (List.mem_append_left _ hop), hfront op hop⟩) p
    exact hmove.trans (.cons y (ih hothers (p.step y).1))

theorem Reordering.append_left {xs ys : List Op} (before : List Op)
    (hreorder : Reordering (p.after before) xs ys) :
    Reordering p (before ++ xs) (before ++ ys) := by
  induction before generalizing p with
  | nil => exact hreorder
  | cons op before ih => exact .cons op (ih hreorder)

theorem Reordering.append_right {xs ys : List Op} (hreorder : Reordering p xs ys)
    (later : List Op) : Reordering p (xs ++ later) (ys ++ later) := by
  induction hreorder with
  | refl p ops => exact .refl p _
  | symm _ ih => exact ih.symm
  | trans _ _ first second => exact first.trans second
  | cons op _ ih => exact .cons op ih
  | swap rest hhandle hchange hspares => exact .swap (rest ++ later) hhandle hchange hspares

/-! ## Items on their own -/

theorem get_empty_ne_ok (config : PoolConfig) (h : Handle) (item : Item) :
    (empty config).get h ≠ .ok item := by
  intro hget
  obtain ⟨hitem, -⟩ := get_eq_ok_iff.1 hget
  cases hitem

/-- **Items evolve independently.**  Every item at the end of a run has a life in it, from the
insertion that made it, and its status is what the requests through its handle since then have made
of its first one; nothing else contributes.  Hence status operations may be rearranged as long as
those through one handle stay in order, and each may pass whatever leaves its item alone: the run
ends in the same pool and gives the same answers. -/
theorem items_evolve_independently (config : PoolConfig) :
    (∀ ops, ∀ item ∈ ((empty config).after ops).items, ∃ before installed later,
      (empty config).Lifetime ops item.handle before item.unit installed later ∧
        item.status = (Status.initial installed (config.isLocked item.unit.resolvable)).replay
          (requests item.handle later)) ∧
      (∀ ops h before u installed later,
        (empty config).Lifetime ops h before u installed later →
          ((empty config).after ops).get h = .ok ⟨h, u,
            (Status.initial installed (config.isLocked u.resolvable)).replay
              (requests h later)⟩) ∧
      (∀ before xs ys later, Rearranged xs ys →
        (empty config).RunsAlike (before ++ xs ++ later) (before ++ ys ++ later)) ∧
      ∀ xs ys, Reordering (empty config) xs ys → (empty config).RunsAlike xs ys := by
  have hempty := hasRoster_empty config
  refine ⟨?_, ?_, ?_, ?_⟩
  · intro ops item hitem
    have hget : ((empty config).after ops).get item.handle = .ok item :=
      get_eq_ok_iff.2 ⟨mem_items_iff.1 hitem, rfl⟩
    rcases exists_lifetime_of_get hempty hget with ⟨⟨old, hold⟩, -⟩ | hlife
    · exact absurd hold (get_empty_ne_ok config item.handle old)
    · obtain ⟨before, u, installed, later, hlife⟩ := hlife
      have hfinal := hlife.get_after hempty
      rw [hget] at hfinal
      have hsame := Except.ok.inj hfinal
      obtain rfl : item.unit = u := congrArg Item.unit hsame
      exact ⟨before, installed, later, hlife, congrArg Item.status hsame⟩
  · intro ops h before u installed later hlife
    exact hlife.get_after hempty
  · intro before xs ys later hrearranged
    have hmiddle := (hrearranged.reordering ((empty config).after before)).append_left before
    exact (hmiddle.append_right later).runsAlike hempty
  · exact fun xs ys hreorder => hreorder.runsAlike hempty

/-- Two copies of a unit.  One is locked and then refuses a mark; the other is marked
and removed. -/
theorem items_evolve_independently_shell :
    let before := [.insert .shell false, .insert .shell true]
    let xs := [.setLock ⟨0, 1⟩ true, .setTransact ⟨1, 2⟩ true .user,
      .setTransact ⟨0, 1⟩ true .solver]
    let ys := [.setTransact ⟨1, 2⟩ true .user, .setLock ⟨0, 1⟩ true,
      .setTransact ⟨0, 1⟩ true .solver]
    let later := [.remove ⟨1, 2⟩]
    (empty .default).RunsAlike (before ++ xs ++ later) (before ++ ys ++ later) ∧
      ((empty .default).after (before ++ xs ++ later)).get ⟨0, 1⟩ =
        .ok ⟨⟨0, 1⟩, .shell, ⟨false, false, true, .solver⟩⟩ ∧
      (∃ earlier installed rest,
        (empty .default).Lifetime (before ++ xs ++ later) ⟨0, 1⟩ earlier .shell installed rest) ∧
      (empty .default).RunsAlike [.insert .shell false, .setLock ⟨0, 1⟩ true, .insert .shell true]
        [.insert .shell false, .insert .shell true, .setLock ⟨0, 1⟩ true] := by
  intro before xs ys later
  obtain ⟨hlives, hstatus, hrearrange, hreorder⟩ := items_evolve_independently .default
  have hrearranged : Rearranged xs ys := by
    refine ⟨by simp [xs, Op.change?], by simp [ys, Op.change?], fun h => ?_⟩
    by_cases hfirst : (⟨0, 1⟩ : Handle) = h
    · subst hfirst
      rfl
    · simp [xs, ys, List.filter_cons, Op.handle?, hfirst]
  have hlife : (empty .default).Lifetime (before ++ xs ++ later) ⟨0, 1⟩ [] .shell false
      (.insert .shell true :: xs ++ later) := by
    refine ⟨rfl, rfl, rfl, not_releases_of_not_mem ?_⟩
    simp [xs, later]
  have hspares : ((empty .default).after [.insert .shell false]).Spares ⟨0, 1⟩
      (.insert .shell true) := by
    refine ⟨by simp [Op.handle?], fun u installed heq _ => ?_⟩
    cases heq
    decide
  have hitem : (⟨⟨0, 1⟩, .shell, ⟨false, false, true, .solver⟩⟩ : Item) ∈
      ((empty .default).after (before ++ xs ++ later)).items := mem_items_iff.2 rfl
  obtain ⟨earlier, installed, rest, hfound, -⟩ := hlives _ _ hitem
  exact ⟨hrearrange before xs ys later hrearranged, hstatus _ _ _ _ _ _ hlife,
    ⟨earlier, installed, rest, hfound⟩,
    hreorder _ _ (.cons _ (.swap [] rfl rfl hspares))⟩

end Pool

end PackagePool
