import PackagePool.Proofs.Version.Order
import PackagePool.Proofs.Version.TokenOrder

/-!
# Separators and leading zeros

No run crosses a separator, so separators cut a version text into parts that are read on their own:
the segments of the whole are those of the parts, one after the other.  Which separators they are,
how many, and whether they stand at an end does not matter, and neither do zeros in front of a run
of digits.

The comparison of version texts reads nothing but segments (`interchangeable_iff`).  So a common
part in front of separators cancels, and a text is older than what a further part makes of it.  The
main result, `separators_divide`, gathers these laws.
-/

namespace PackagePool.Version

/-! ## Segments of parts -/

theorem charSegments_skip {seps : List Char} (h : ∀ c ∈ seps, RunKind.ofChar? c = none)
    (rest : List Char) : charSegments (seps ++ rest) = charSegments rest := by
  induction seps with
  | nil => rfl
  | cons c seps ih =>
    obtain ⟨hc, hseps⟩ := List.forall_mem_cons.1 h
    rw [List.cons_append, charSegments_cons_separator hc, ih hseps]

/-- One separator divides the text, and the others are skipped. -/
theorem charSegments_append_separators {seps : List Char} (hne : seps ≠ [])
    (h : ∀ c ∈ seps, RunKind.ofChar? c = none) (before after : List Char) :
    charSegments (before ++ (seps ++ after)) = charSegments before ++ charSegments after := by
  obtain ⟨c, seps, rfl⟩ := List.exists_cons_of_ne_nil hne
  obtain ⟨hc, hseps⟩ := List.forall_mem_cons.1 h
  rw [List.cons_append, charSegments_append_separator hc, charSegments_skip hseps]

/-- Where the kind changes, one run ends and another starts. -/
theorem charSegments_append_of_ne {before after : List Char}
    (h : ∀ x ∈ before.getLast?, ∀ y ∈ after.head?, RunKind.ofChar? x ≠ RunKind.ofChar? y) :
    charSegments (before ++ after) = charSegments before ++ charSegments after := by
  have hsplit : charRuns (before ++ after) = charRuns before ++ charRuns after :=
    List.splitBy_append fun x hx y hy => beq_eq_false_iff_ne.2 (h x hx y hy)
  rw [charSegments, hsplit, List.filterMap_append]
  rfl

theorem charSegments_run {kind : RunKind} {run : List Char} (hne : run ≠ [])
    (h : ∀ c ∈ run, RunKind.ofChar? c = some kind) :
    charSegments run = [Segment.ofRun kind run] := by
  have hkind : runKind? run = some kind := by
    obtain ⟨c, rest, rfl⟩ := List.exists_cons_of_ne_nil hne
    exact h c List.mem_cons_self
  have hruns : [run] = charRuns run := by
    refine eq_charRuns_iff.2 ⟨⟨?_, ?_, .singleton run⟩, List.flatten_singleton⟩
    · simpa using hne
    · simpa [hkind] using h
  rw [charSegments, ← hruns, List.filterMap_cons, Segment.ofRun?, hkind]
  rfl

/-! ## Leading zeros -/

theorem RunKind.ofChar?_eq_digits_iff {c : Char} :
    RunKind.ofChar? c = some .digits ↔ c.isDigit = true :=
  ⟨isDigit_of_ofChar?, fun h => if_pos h⟩

theorem Segment.ofRun_zeros_append (n : Nat) (digits : List Char) :
    ofRun .digits (List.replicate n '0' ++ digits) = ofRun .digits digits := by
  induction n with
  | zero => rfl
  | succ n ih => exact ih

/-- Zeros in front of a digit belong to its run, and to no segment. -/
theorem charSegments_zeros_append (n : Nat) {rest : List Char}
    (hrest : ∃ c ∈ rest.head?, c.isDigit = true) :
    charSegments (List.replicate n '0' ++ rest) = charSegments rest := by
  obtain ⟨digits, after, rfl, hall, hafter⟩ := exists_front_append Char.isDigit rest
  have hne : digits ≠ [] := by
    rintro rfl
    obtain ⟨c, hc, hdigit⟩ := hrest
    rw [hafter c hc] at hdigit
    cases hdigit
  have hdigits : ∀ c ∈ digits, RunKind.ofChar? c = some .digits := fun c hc =>
    RunKind.ofChar?_eq_digits_iff.2 (hall c hc)
  -- a run of digits in front of what follows is one segment, with or without the zeros
  have hrun : ∀ run : List Char, run ≠ [] → (∀ c ∈ run, RunKind.ofChar? c = some .digits) →
      charSegments (run ++ after) = Segment.ofRun .digits run :: charSegments after := by
    intro run hne hrun
    rw [charSegments_append_of_ne, charSegments_run hne hrun, List.singleton_append]
    intro x hx y hy hsame
    rw [hrun x (List.mem_of_mem_getLast? hx)] at hsame
    have hdigit := hafter y hy
    rw [RunKind.ofChar?_eq_digits_iff.1 hsame.symm] at hdigit
    cases hdigit
  have hzeros : ∀ c ∈ List.replicate n '0' ++ digits, RunKind.ofChar? c = some .digits := by
    intro c hc
    rcases List.mem_append.1 hc with hc | hc
    · rw [List.eq_of_mem_replicate hc]
      decide
    · exact hdigits c hc
  rw [← List.append_assoc, hrun _ (by simp [hne]) hzeros, hrun _ hne hdigits,
    Segment.ofRun_zeros_append]

/-! ## Comparison -/

theorem compareText_congr {a a' b b' : String} (ha : segments a = segments a')
    (hb : segments b = segments b') : compareText a b = compareText a' b' := by
  rw [compareText, compareText, ha, hb]

/-- The texts compare alike with every text, from either side. -/
def Interchangeable (a b : String) : Prop :=
  ∀ x, compareText a x = compareText b x ∧ compareText x a = compareText x b

/-- The comparison sees the segments and nothing else. -/
theorem interchangeable_iff {a b : String} : Interchangeable a b ↔ segments a = segments b := by
  constructor
  · intro h
    have heq : Ord.compare (segments a) (segments b) = Ord.compare (segments b) (segments b) :=
      (h b).1
    have hself : Ord.compare (segments b) (segments b) = .eq := Std.ReflCmp.compare_self
    exact Std.LawfulEqOrd.eq_of_compare (heq.trans hself)
  · exact fun h x => ⟨compareText_congr h rfl, compareText_congr rfl h⟩

theorem compareLex_append {xs ys zs : List Segment} :
    List.compareLex Segment.compare (xs ++ ys) (xs ++ zs) =
      List.compareLex Segment.compare ys zs := by
  induction xs with
  | nil => rfl
  | cons x xs ih =>
    have hself : Segment.compare x x = .eq := Std.ReflCmp.compare_self
    rw [List.cons_append, List.cons_append, List.compareLex_cons_cons, hself, Ordering.eq_then, ih]

theorem compareLex_append_self {xs ys : List Segment} :
    List.compareLex Segment.compare xs (xs ++ ys) = .lt ↔ ys ≠ [] := by
  have hcut : List.compareLex Segment.compare (xs ++ []) (xs ++ ys) =
      List.compareLex Segment.compare [] ys := compareLex_append
  rw [List.append_nil] at hcut
  rw [hcut]
  cases ys with
  | nil => simp [List.compareLex_nil_nil]
  | cons y ys => simp [List.compareLex_nil_cons]

/-! ## The laws -/

/-- A text of separators, at least one. -/
structure IsSeparator (s : String) : Prop where
  ne_empty : s ≠ ""
  isAlphanum_eq_false : ∀ c ∈ s.toList, c.isAlphanum = false

theorem IsSeparator.ofChar?_eq_none {s : String} (h : IsSeparator s) :
    ∀ c ∈ s.toList, RunKind.ofChar? c = none :=
  fun c hc => RunKind.ofChar?_eq_none_iff.2 (h.isAlphanum_eq_false c hc)

theorem segments_append_separator {s : String} (h : IsSeparator s) (p a : String) :
    segments (p ++ s ++ a) = segments p ++ segments a := by
  have hne : s.toList ≠ [] := by simpa using h.ne_empty
  simp only [segments_eq_charSegments, String.toList_append, List.append_assoc]
  exact charSegments_append_separators hne h.ofChar?_eq_none _ _

/-- Zeros, as many as asked for. -/
def zeros (n : Nat) : String :=
  String.ofList (List.replicate n '0')

theorem segments_zeros {p a : String} (hp : ∀ c ∈ p.toList.getLast?, c.isDigit = false)
    (ha : ∃ c ∈ a.toList.head?, c.isDigit = true) (n : Nat) :
    segments (p ++ zeros n ++ a) = segments (p ++ a) := by
  have hfront : ∀ rest : List Char, (∃ c ∈ rest.head?, c.isDigit = true) →
      charSegments (p.toList ++ rest) = charSegments p.toList ++ charSegments rest := by
    rintro rest ⟨d, hd, hdigit⟩
    refine charSegments_append_of_ne fun x hx y hy hsame => ?_
    obtain rfl := Option.some.inj ((Option.mem_def.1 hd).symm.trans hy)
    rw [RunKind.ofChar?_eq_digits_iff.2 hdigit, RunKind.ofChar?_eq_digits_iff, hp x hx] at hsame
    cases hsame
  have hzeros : ∃ c ∈ (List.replicate n '0' ++ a.toList).head?, c.isDigit = true := by
    cases n with
    | zero => exact ha
    | succ n => exact ⟨'0', rfl, rfl⟩
  simp only [segments_eq_charSegments, String.toList_append, zeros, String.toList_ofList,
    List.append_assoc]
  rw [hfront _ hzeros, hfront _ ha, charSegments_zeros_append n ha]

theorem segments_ne_nil_iff {s : String} :
    segments s ≠ [] ↔ ∃ c ∈ s.toList, c.isAlphanum = true := by
  rw [← hasSegment_iff, hasSegment, Bool.not_eq_true', List.isEmpty_eq_false_iff]

theorem segments_empty : segments "" = [] := rfl

/-- **Separators divide version texts.**  The segments of the parts follow one another.  So the part
in front of separators cancels in a comparison, and a text is older than the text that goes on
behind separators exactly if what follows has a letter or a digit.  Texts that differ in the
separators between two parts, in separators at an end or in zeros in front of a run of digits
compare alike with all texts. -/
theorem separators_divide {s : String} (hs : IsSeparator s) (p a b : String) :
    segments (p ++ s ++ a) = segments p ++ segments a ∧
      compareText (p ++ s ++ a) (p ++ s ++ b) = compareText a b ∧
      (compareText p (p ++ s ++ a) = .lt ↔ ∃ c ∈ a.toList, c.isAlphanum = true) ∧
      (∀ t, IsSeparator t → Interchangeable (p ++ s ++ a) (p ++ t ++ a)) ∧
      Interchangeable (s ++ a) a ∧ Interchangeable (a ++ s) a ∧
      ((∀ c ∈ p.toList.getLast?, c.isDigit = false) → (∃ c ∈ a.toList.head?, c.isDigit = true) →
        ∀ n, Interchangeable (p ++ zeros n ++ a) (p ++ a)) := by
  have hdivide := segments_append_separator hs
  refine ⟨hdivide p a, ?cancel, ?older, ?replaced, ?front, ?back, ?zeros⟩
  case cancel => rw [compareText, hdivide, hdivide, compareLex_append, compareText]
  case older => rw [compareText, hdivide, compareLex_append_self, segments_ne_nil_iff]
  case replaced =>
    intro t ht
    rw [interchangeable_iff, hdivide, segments_append_separator ht]
  case front =>
    have hfront := hdivide "" a
    rw [String.empty_append, segments_empty, List.nil_append] at hfront
    exact interchangeable_iff.2 hfront
  case back =>
    have hback := hdivide a ""
    rw [String.append_empty, segments_empty, List.append_nil] at hback
    exact interchangeable_iff.2 hback
  case zeros =>
    intro hp ha n
    exact interchangeable_iff.2 (segments_zeros hp ha n)

/-- The separators may be of several bytes, and the run of digits may follow letters at once. -/
theorem separators_divide_dash :
    IsSeparator "–·" ∧ IsSeparator "." ∧
      compareText "rc" ("rc" ++ "–·" ++ "5x") = .lt ∧
      Interchangeable ("rc" ++ "–·" ++ "5x") ("rc" ++ "." ++ "5x") ∧
      (∀ c ∈ "rc".toList.getLast?, c.isDigit = false) ∧
      (∃ c ∈ "5x".toList.head?, c.isDigit = true) ∧
      Interchangeable ("rc" ++ zeros 3 ++ "5x") ("rc" ++ "5x") := by
  have hdash : IsSeparator "–·" := ⟨by decide, by simp⟩
  have hdot : IsSeparator "." := ⟨by decide, by simp⟩
  have hletters : ∀ c ∈ "rc".toList.getLast?, c.isDigit = false := by simp
  have hdigit : ∃ c ∈ "5x".toList.head?, c.isDigit = true := ⟨'5', rfl, rfl⟩
  obtain ⟨-, -, holder, hreplaced, -, -, hzeros⟩ := separators_divide hdash "rc" "5x" ""
  exact ⟨hdash, hdot, holder.2 ⟨'5', by decide, rfl⟩, hreplaced "." hdot, hletters, hdigit,
    hzeros hletters hdigit 3⟩

end PackagePool.Version
