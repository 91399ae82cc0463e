import PackagePool.Proofs.Pool.Handles

/-!
# The life of one item

All items share one pool, and yet each of them is a machine of its own: its status is what the
requests through its handle make of the status that it was inserted with.  Insertions, removals of
other items, requests through other handles and requests through stale ones leave no trace in it,
even though slots are reused.

`Pool.Lifetime` singles out the life of an item in a run, from the insertion that made it to the
end.  The main results are `Lifetime.get_after`, which computes the item at the end of its life so
far, and `exists_lifetime_of_get`, which finds the life of every item.
-/

namespace PackagePool

namespace Pool

variable {p q : Pool} {roster : List Item} {op : Op} {r : Response} {ops : List Op} {h : Handle}
  {item : Item}

/-! ## One transition -/

/-- An item that is there after a transition was there already, or the transition has placed it. -/
theorem Transition.get_inv (t : Transition p op q r) (hroster : HasRoster p roster)
    (hget : q.get h = .ok item) :
    ((∃ old, p.get h = .ok old) ∧ ¬ (op = .remove h ∧ ∃ v, r = .removed v)) ∨
      ∃ u installed, op = .insert u installed ∧ p.findDuplicate? u installed = none ∧
        r = .inserted h := by
  obtain ⟨hitem, rfl⟩ := get_eq_ok_iff.1 hget
  cases t with
  | duplicate => exact .inl ⟨⟨item, hget⟩, by simp⟩
  | @placed u installed hnone =>
    rw [item?_place hroster.vacancy_spec.1] at hitem
    split at hitem
    · obtain rfl := Option.some.inj hitem
      exact .inr ⟨u, installed, rfl, hnone, rfl⟩
    · exact .inl ⟨⟨item, get_eq_ok_iff.2 ⟨hitem, rfl⟩⟩, by simp⟩
  | @vacated other _ hother =>
    rw [item?_vacate (lt_size_of_find? hother)] at hitem
    split at hitem
    · cases hitem
    · rename_i hne
      refine .inl ⟨⟨item, get_eq_ok_iff.2 ⟨hitem, rfl⟩⟩, ?_⟩
      rintro ⟨hsame, -⟩
      exact hne (congrArg Handle.index (Op.remove.inj hsame).symm)
  | @rewritten _ other change old status _ _ hother =>
    rw [item?_writeStatus (slot?_of_find? hother), Option.map_eq_some_iff] at hitem
    obtain ⟨before, hbefore, rfl⟩ := hitem
    rw [Item.restatus_handle] at hbefore ⊢
    exact .inl ⟨⟨before, get_eq_ok_iff.2 ⟨hbefore, rfl⟩⟩, by simp⟩
  | refused => exact .inl ⟨⟨item, hget⟩, by simp⟩
  | stale => exact .inl ⟨⟨item, hget⟩, by simp⟩

/-! ## A run -/

theorem get_after_of_kept (hroster : HasRoster p roster) (hget : p.get h = .ok item)
    (hkept : ¬ p.Releases h ops) :
    (p.after ops).get h = .ok { item with status := item.status.replay (requests h ops) } := by
  induction ops generalizing p roster item with
  | nil => exact hget
  | cons op ops ih =>
    rw [releases_cons, not_or] at hkept
    have hstep := transition_step p op
    obtain ⟨next, hnext, -⟩ := hroster.transition hstep
    rw [after_cons, requests_cons, Status.replay_append]
    exact ih hnext (hstep.get_of_kept hroster hget hkept.1) hkept.2

/-- The life of an item in a run of `ops` from `p`: the insertion behind `before` makes the item,
under the handle `h`, and no operation of `later` removes it. -/
structure Lifetime (p : Pool) (ops : List Op) (h : Handle) (before : List Op) (u : PackageUnit)
    (installed : Bool) (later : List Op) : Prop where
  split : ops = before ++ .insert u installed :: later
  new : (p.after before).findDuplicate? u installed = none
  answer : ((p.after before).insert u installed).2 = h
  kept : ¬ ((p.after before).insert u installed).1.Releases h later

/-- At the end of its life so far an item has the unit that was inserted, and the status that the
requests through its handle have made of its first one. -/
theorem Lifetime.get_after {before later : List Op} {u : PackageUnit} {installed : Bool}
    (hlife : p.Lifetime ops h before u installed later) (hroster : HasRoster p roster) :
    (p.after ops).get h = .ok ⟨h, u,
      (Status.initial installed (p.config.isLocked u.resolvable)).replay (requests h later)⟩ := by
  obtain ⟨rfl, hnew, hanswer, hkept⟩ := hlife
  obtain ⟨mid, hmid, -⟩ := hroster.after before
  rw [insert_of_not_findDuplicate? hnew] at hanswer hkept
  subst hanswer
  have hplaced := get_place hmid u installed
  have hfinal := get_after_of_kept (hmid.place u installed) hplaced hkept
  have hstep : ((p.after before).step (.insert u installed)).1 =
      ((p.after before).place u installed).1 :=
    congrArg Prod.fst (insert_of_not_findDuplicate? hnew)
  rw [after_append, after_cons, hstep, hfinal, arrival, config_after]

/-- An item at the end of a run was there at the start and has not been removed, or the run has
made it. -/
theorem exists_lifetime_of_get (hroster : HasRoster p roster)
    (hget : (p.after ops).get h = .ok item) :
    ((∃ old, p.get h = .ok old) ∧ ¬ p.Releases h ops) ∨
      ∃ before u installed later, p.Lifetime ops h before u installed later := by
  induction ops generalizing p roster with
  | nil => exact .inl ⟨⟨item, hget⟩, not_releases_nil p h⟩
  | cons op ops ih =>
    have hstep := transition_step p op
    obtain ⟨next, hnext, -⟩ := hroster.transition hstep
    rcases ih hnext hget with ⟨⟨old, hold⟩, hkept⟩ | ⟨before, u, installed, later, hlife⟩
    · rcases hstep.get_inv hroster hold with ⟨hearlier, hhere⟩ | ⟨u, installed, rfl, hnew, hanswer⟩
      · exact .inl ⟨hearlier, fun hreleases => (releases_cons.1 hreleases).elim hhere hkept⟩
      · exact .inr ⟨[], u, installed, ops, rfl, hnew, Response.inserted.inj hanswer, hkept⟩
    · obtain ⟨rfl, hnew, hanswer, hkept⟩ := hlife
      exact .inr ⟨op :: before, u, installed, later, rfl, hnew, hanswer, hkept⟩

end Pool

end PackagePool
