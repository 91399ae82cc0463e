import Mathlib.Data.List.DropRight
import PackagePool.Text.Blank

/-!
# Trimming

What dropping the blanks at the ends does to a text that is put together from parts: as long as a
part holds some character that is not blank, the dropping stops in that part.  A text stays as it is
exactly if no blank stands at either of its ends (`trimChars_eq_self_iff`).
-/

namespace PackagePool.Text

/-- Whether the first character is blank. -/
def startsBlank (cs : List Char) : Bool :=
  cs.head?.any isBlank

/-- Whether the last character is blank. -/
def endsBlank (cs : List Char) : Bool :=
  cs.getLast?.any isBlank

/-- A text without the blanks at its start. -/
def trimStart (s : String) : String :=
  String.ofList (s.toList.dropWhile isBlank)

/-- A text without the blanks at its end. -/
def trimEnd (s : String) : String :=
  String.ofList (dropBlankEnd s.toList)

@[simp] theorem toList_trimStart (s : String) :
    (trimStart s).toList = s.toList.dropWhile isBlank := String.toList_ofList

@[simp] theorem toList_trimEnd (s : String) : (trimEnd s).toList = dropBlankEnd s.toList :=
  String.toList_ofList

/-- Some character is not blank, so that trimming leaves something. -/
def Solid (cs : List Char) : Prop :=
  ∃ c ∈ cs, isBlank c = false

theorem Solid.ne_nil {cs : List Char} (h : Solid cs) : cs ≠ [] := by
  rintro rfl
  obtain ⟨c, hc, -⟩ := h
  cases hc

theorem dropBlankEnd_eq_rdropWhile (cs : List Char) : dropBlankEnd cs = cs.rdropWhile isBlank := rfl

/-! ## The start -/

theorem Solid.dropWhile_append {cs : List Char} (h : Solid cs) (rest : List Char) :
    (cs ++ rest).dropWhile isBlank = cs.dropWhile isBlank ++ rest := by
  obtain ⟨c, hc, hblank⟩ := h
  have hleft : cs.dropWhile isBlank ≠ [] := by
    intro hnil
    rw [List.dropWhile_eq_nil_iff] at hnil
    rw [hnil c hc] at hblank
    cases hblank
  rw [List.dropWhile_append, if_neg (by simpa using hleft)]

theorem dropWhile_eq_self_iff {cs : List Char} :
    cs.dropWhile isBlank = cs ↔ startsBlank cs = false := by
  rw [List.dropWhile_eq_self_iff, startsBlank]
  cases cs <;> simp

theorem startsBlank_append {cs : List Char} (h : cs ≠ []) (rest : List Char) :
    startsBlank (cs ++ rest) = startsBlank cs := by
  rw [startsBlank, List.head?_append_of_ne_nil _ h, startsBlank]

/-! ## The end -/

theorem Solid.dropBlankEnd_append {cs : List Char} (h : Solid cs) (front : List Char) :
    dropBlankEnd (front ++ cs) = front ++ dropBlankEnd cs := by
  have hreverse : Solid cs.reverse := by
    obtain ⟨c, hc, hblank⟩ := h
    exact ⟨c, List.mem_reverse.2 hc, hblank⟩
  rw [dropBlankEnd, List.reverse_append, hreverse.dropWhile_append, List.reverse_append,
    List.reverse_reverse, dropBlankEnd]

theorem dropBlankEnd_eq_self_iff {cs : List Char} :
    dropBlankEnd cs = cs ↔ endsBlank cs = false := by
  rw [dropBlankEnd_eq_rdropWhile, List.rdropWhile_eq_self_iff, endsBlank]
  by_cases hne : cs = []
  · simp [hne]
  · simp [hne, List.getLast?_eq_some_getLast hne]

theorem endsBlank_append {cs : List Char} (h : cs ≠ []) (front : List Char) :
    endsBlank (front ++ cs) = endsBlank cs := by
  rw [endsBlank, List.getLast?_append_of_ne_nil _ h, endsBlank]

/-! ## Both ends -/

theorem endsBlank_trimChars (cs : List Char) : endsBlank (trimChars cs) = false := by
  rw [← dropBlankEnd_eq_self_iff]
  exact List.rdropWhile_idempotent _ _

/-- Trimming changes a text exactly if a blank stands at one of its ends. -/
theorem trimChars_eq_self_iff {cs : List Char} :
    trimChars cs = cs ↔ startsBlank cs = false ∧ endsBlank cs = false := by
  constructor
  · intro h
    have hlength : cs.length ≤ (cs.dropWhile isBlank).length :=
      calc cs.length = (trimChars cs).length := by rw [h]
        _ ≤ (cs.dropWhile isBlank).length := (List.rdropWhile_prefix isBlank _).length_le
    have hstart : cs.dropWhile isBlank = cs :=
      (List.dropWhile_suffix isBlank).eq_of_length_le hlength
    refine ⟨dropWhile_eq_self_iff.1 hstart, ?_⟩
    rw [← h]
    exact endsBlank_trimChars cs
  · rintro ⟨hstart, hend⟩
    rw [trimChars, dropWhile_eq_self_iff.2 hstart, dropBlankEnd_eq_self_iff.2 hend]

/-- Where nothing is blank there is nothing to trim. -/
theorem trimChars_eq_self_of_forall {cs : List Char} (h : ∀ c ∈ cs, isBlank c = false) :
    trimChars cs = cs := by
  refine trimChars_eq_self_iff.2 ⟨?_, ?_⟩
  · simpa [startsBlank, Option.any_eq_false] using fun c hc => h c (List.mem_of_mem_head? hc)
  · simpa [endsBlank, Option.any_eq_false] using fun c hc => h c (List.mem_of_mem_getLast? hc)

theorem trim_of_isWord {w : String} (h : IsWord w) : trim w = w := by
  rw [trim, trimChars_eq_self_of_forall h.2, String.ofList_toList]

end PackagePool.Text
