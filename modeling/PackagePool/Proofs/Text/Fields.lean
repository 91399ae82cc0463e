import PackagePool.Proofs.Text.Trim

/-!
# The fields of a text

A text is a row of words with blanks between them, and possibly in front and behind.  `LaysOut` says
so without saying how the words are found, and `fields_eq_iff` that every text is such a row in
exactly one way, namely of its fields.
-/

namespace PackagePool.Text

/-- The characters are the given words, with blanks between neighbours and possibly at both ends. -/
inductive LaysOut : List String → List Char → Prop
  | blanks {gap : List Char} (hgap : ∀ c ∈ gap, isBlank c = true) : LaysOut [] gap
  | word {gap rest : List Char} {w : String} {words : List String}
      (hgap : ∀ c ∈ gap, isBlank c = true) (hword : IsWord w)
      (hend : rest = [] ∨ startsBlank rest = true) (hrest : LaysOut words rest) :
      LaysOut (w :: words) (gap ++ w.toList ++ rest)

namespace LaysOut

theorem isWord {words : List String} {cs : List Char} (h : LaysOut words cs) :
    ∀ w ∈ words, IsWord w := by
  induction h with
  | blanks => simp
  | word _ hword _ _ ih => exact List.forall_mem_cons.2 ⟨hword, ih⟩

theorem cons_blank {c : Char} (hc : isBlank c = true) {words : List String} {cs : List Char}
    (h : LaysOut words cs) : LaysOut words (c :: cs) := by
  cases h with
  | blanks hgap => exact .blanks (List.forall_mem_cons.2 ⟨hc, hgap⟩)
  | word hgap hword hend hrest =>
    exact .word (List.forall_mem_cons.2 ⟨hc, hgap⟩) hword hend hrest

theorem word_append {w : String} (hword : IsWord w) {words : List String} {rest : List Char}
    (hend : rest = [] ∨ startsBlank rest = true) (hrest : LaysOut words rest) :
    LaysOut (w :: words) (w.toList ++ rest) := by
  have hnone : ∀ c ∈ ([] : List Char), isBlank c = true := by simp
  exact .word hnone hword hend hrest

/-- A word alone. -/
theorem singleton {w : String} (hword : IsWord w) : LaysOut [w] w.toList := by
  have hrest : LaysOut [] [] := .blanks (by simp)
  simpa using word_append hword (.inl rfl) hrest

/-- A word in front of a row, with a blank between them. -/
theorem word_blank_append {w : String} (hword : IsWord w) {c : Char} (hc : isBlank c = true)
    {words : List String} {cs : List Char} (h : LaysOut words cs) :
    LaysOut (w :: words) (w.toList ++ c :: cs) :=
  word_append hword (.inr hc) (h.cons_blank hc)

end LaysOut

/-! ## Every text is a row of words -/

theorem eq_nil_or_startsBlank {gap : List Char} (hgap : ∀ c ∈ gap, isBlank c = true) :
    gap = [] ∨ startsBlank gap = true := by
  cases gap with
  | nil => exact .inl rfl
  | cons c gap => exact .inr (hgap c List.mem_cons_self)

/-- A row with a letter in front is a row: the letter lengthens the word that the row starts with,
or is a word of its own if there is none. -/
theorem LaysOut.exists_cons_letter {c : Char} (hc : isBlank c = false) {words : List String}
    {cs : List Char} (h : LaysOut words cs) : ∃ words, LaysOut words (c :: cs) := by
  have hletter : IsWord (String.ofList [c]) := ⟨by simp, by simpa using hc⟩
  have halone : cs = [] ∨ startsBlank cs = true → ∃ words, LaysOut words (c :: cs) := by
    intro hend
    have hrow := word_append hletter hend h
    rw [String.toList_ofList] at hrow
    exact ⟨_, hrow⟩
  cases h with
  | blanks hgap => exact halone (eq_nil_or_startsBlank hgap)
  | @word gap rest w words hgap hword hend hrest =>
    cases gap with
    | nil =>
      have hlonger : IsWord (String.ofList (c :: w.toList)) := by
        refine ⟨by simp, ?_⟩
        rw [String.toList_ofList]
        exact List.forall_mem_cons.2 ⟨hc, hword.2⟩
      have hrow := word_append hlonger hend hrest
      rw [String.toList_ofList] at hrow
      exact ⟨_, hrow⟩
    | cons b gap => exact halone (.inr (hgap b List.mem_cons_self))

theorem exists_laysOut (cs : List Char) : ∃ words, LaysOut words cs := by
  induction cs with
  | nil => exact ⟨[], .blanks (by simp)⟩
  | cons c cs ih =>
    obtain ⟨words, h⟩ := ih
    cases hc : isBlank c with
    | true => exact ⟨words, h.cons_blank hc⟩
    | false => exact h.exists_cons_letter hc

/-! ## The words are found -/

/-- The fields of a text, from its characters. -/
def charFields (cs : List Char) : List String :=
  ((cs.splitOnP isBlank).filter fun run => !run.isEmpty).map String.ofList

theorem charFields_cons_blank {c : Char} (hc : isBlank c = true) (cs : List Char) :
    charFields (c :: cs) = charFields cs := by
  rw [charFields, List.splitOnP_cons_eq_if_modifyHead, if_pos hc]
  rfl

theorem charFields_blanks_append {gap : List Char} (hgap : ∀ c ∈ gap, isBlank c = true)
    (cs : List Char) : charFields (gap ++ cs) = charFields cs := by
  induction gap with
  | nil => rfl
  | cons c gap ih =>
    obtain ⟨hc, hgap⟩ := List.forall_mem_cons.1 hgap
    rw [List.cons_append, charFields_cons_blank hc, ih hgap]

theorem charFields_word_append {w : String} (hword : IsWord w) {rest : List Char}
    (hend : rest = [] ∨ startsBlank rest = true) :
    charFields (w.toList ++ rest) = w :: charFields rest := by
  obtain ⟨hne, hblank⟩ := hword
  have hrun : w.toList.isEmpty = false := by simpa using hne
  cases rest with
  | nil =>
    rw [List.append_nil, charFields, List.splitOnP_eq_singleton hblank]
    simp [hrun, charFields]
  | cons c rest =>
    have hc : isBlank c = true := by simpa [startsBlank] using hend
    rw [charFields_cons_blank hc, charFields,
      List.splitOnP_append_cons_of_forall_mem hblank c hc]
    simp [hrun, charFields]

theorem LaysOut.charFields_eq {words : List String} {cs : List Char} (h : LaysOut words cs) :
    charFields cs = words := by
  induction h with
  | @blanks gap hgap =>
    have hnone := charFields_blanks_append hgap []
    rw [List.append_nil] at hnone
    exact hnone
  | word hgap hword hend _ ih =>
    rw [List.append_assoc, charFields_blanks_append hgap, charFields_word_append hword hend, ih]

/-- **The fields of a text are its words.**  There is one way to see a text as a row of words. -/
theorem fields_eq_iff {s : String} {words : List String} :
    fields s = words ↔ LaysOut words s.toList := by
  constructor
  · rintro rfl
    obtain ⟨words, h⟩ := exists_laysOut s.toList
    have hfields : fields s = words := h.charFields_eq
    rw [hfields]
    exact h
  · exact LaysOut.charFields_eq

theorem isWord_of_fields_eq {s : String} {words : List String} (h : fields s = words) {w : String}
    (hw : w ∈ words) : IsWord w :=
  (fields_eq_iff.1 h).isWord w hw

end PackagePool.Text
