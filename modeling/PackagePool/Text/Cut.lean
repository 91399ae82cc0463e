/-!
# Cutting a text at a separator

A text is cut at the first or at the last place where a separator stands.  The two lemmas
`cutFirst_eq_some_iff` and `cutLast_eq_some_iff` say that the two sides are what stands before and
after the separator, and on which side no other separator is left.
-/

namespace PackagePool.Text

/-- What stands before and after the first `sep`, if there is one. -/
def cutFirst (sep : Char) : List Char → Option (List Char × List Char)
  | [] => none
  | c :: rest =>
    if c = sep then some ([], rest)
    else (cutFirst sep rest).map fun (before, after) => (c :: before, after)

/-- What stands before and after the last `sep`, if there is one. -/
def cutLast (sep : Char) : List Char → Option (List Char × List Char)
  | [] => none
  | c :: rest =>
    match cutLast sep rest with
    | some (before, after) => some (c :: before, after)
    | none => if c = sep then some ([], rest) else none

theorem cutFirst_eq_none_iff {sep : Char} {cs : List Char} :
    cutFirst sep cs = none ↔ sep ∉ cs := by
  induction cs with
  | nil => simp [cutFirst]
  | cons c rest ih =>
    by_cases h : c = sep
    · simp [cutFirst, h]
    · simp [cutFirst, h, ih, Ne.symm h]

theorem cutFirst_eq_some_iff {sep : Char} {cs before after : List Char} :
    cutFirst sep cs = some (before, after) ↔ cs = before ++ sep :: after ∧ sep ∉ before := by
  induction cs generalizing before with
  | nil => simp [cutFirst]
  | cons c rest ih =>
    by_cases h : c = sep
    · subst h
      cases before with
      | nil => simp [cutFirst, eq_comm]
      | cons b before => simp +contextual [cutFirst, eq_comm]
    · cases before with
      | nil => simp [cutFirst, h]
      | cons b before =>
        simp only [cutFirst, h, if_false, Option.map_eq_some_iff, Prod.exists, Prod.mk.injEq,
          List.cons.injEq, List.cons_append, List.mem_cons, not_or]
        constructor
        · rintro ⟨x, y, hxy, ⟨rfl, rfl⟩, rfl⟩
          obtain ⟨rfl, hx⟩ := ih.1 hxy
          exact ⟨⟨rfl, rfl⟩, Ne.symm h, hx⟩
        · rintro ⟨⟨rfl, rfl⟩, _, hb⟩
          exact ⟨before, after, ih.2 ⟨rfl, hb⟩, ⟨rfl, rfl⟩, rfl⟩

theorem cutLast_eq_none_iff {sep : Char} {cs : List Char} :
    cutLast sep cs = none ↔ sep ∉ cs := by
  induction cs with
  | nil => simp [cutLast]
  | cons c rest ih =>
    cases hrest : cutLast sep rest with
    | none =>
      by_cases h : c = sep
      · simp [cutLast, hrest, h]
      · simp [cutLast, hrest, h, Ne.symm h, ih.1 hrest]
    | some pair =>
      have : sep ∈ rest := by
        by_cases hmem : sep ∈ rest
        · exact hmem
        · simp [ih.2 hmem] at hrest
      simp [cutLast, hrest, this]

theorem cutLast_eq_some_iff {sep : Char} {cs before after : List Char} :
    cutLast sep cs = some (before, after) ↔ cs = before ++ sep :: after ∧ sep ∉ after := by
  induction cs generalizing before after with
  | nil => simp [cutLast]
  | cons c rest ih =>
    cases hrest : cutLast sep rest with
    | none =>
      have hnot := cutLast_eq_none_iff.1 hrest
      cases before with
      | nil =>
        by_cases h : c = sep
        · subst h
          simp only [cutLast, hrest, if_true, Option.some.injEq, Prod.mk.injEq, true_and,
            List.nil_append, List.cons.injEq]
          exact ⟨fun e => e ▸ ⟨rfl, hnot⟩, fun e => e.1⟩
        · simp [cutLast, hrest, h]
      | cons b before =>
        have habs : ∀ x : List Char, rest ≠ x ++ sep :: after := by
          rintro x rfl
          exact hnot (by simp)
        by_cases h : c = sep <;> simp [cutLast, hrest, h, habs before]
    | some pair =>
      obtain ⟨x, y⟩ := pair
      obtain ⟨rfl, hy⟩ := ih.1 hrest
      cases before with
      | nil =>
        simp only [cutLast, hrest, Option.some.injEq, Prod.mk.injEq, List.nil_append,
          List.cons.injEq]
        constructor
        · rintro ⟨hbad, _⟩
          simp at hbad
        · rintro ⟨⟨_, rfl⟩, hbad⟩
          exact absurd (by simp) hbad
      | cons b before =>
        simp only [cutLast, hrest, Option.some.injEq, Prod.mk.injEq, List.cons.injEq,
          List.cons_append]
        constructor
        · rintro ⟨⟨rfl, rfl⟩, rfl⟩
          exact ⟨⟨rfl, rfl⟩, hy⟩
        · rintro ⟨⟨rfl, hrow⟩, hafter⟩
          have := ih.2 ⟨hrow, hafter⟩
          rw [hrest] at this
          simp only [Option.some.injEq, Prod.mk.injEq] at this
          exact ⟨⟨rfl, this.1⟩, this.2⟩

end PackagePool.Text
