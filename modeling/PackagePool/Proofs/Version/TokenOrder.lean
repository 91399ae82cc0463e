import Mathlib.Algebra.Group.Nat.Defs
import PackagePool.Proofs.Text.ByteOrder
import PackagePool.Proofs.Version.Scan
import PackagePool.Text.Numeral

/-!
# What the order of version texts means

Version texts are compared without building a number: a digit run is kept as its digits behind the
leading zeros, and of two such runs the longer one is taken for the greater, or the one with the
greater digits if they are of one length.  `compareText_eq_compareTokens` says that this is the
order of the tokens of the two texts, in which a digit run is a natural number of any size.

Each segment stands for a token (`Segment.token`).  Segments and tokens are found on the same runs
of characters, so the tokens of a text are those its segments stand for (`tokens_eq_map_token`).
What remains is the order.  Digits behind another one are worth less than one unit of it
(`Token.value_lt_pow`), so on digits that do not start with zero the order by length and then by
digits is the order by value (`Token.compare_value`).
-/

namespace PackagePool.Version

open PackagePool.Text

/-! ## The division into runs -/

/-- A text is divided into maximal runs in one way only. -/
theorem eq_charRuns_iff {cs : List Char} {runs : List (List Char)} :
    runs = charRuns cs ↔ AreRuns runs ∧ runs.flatten = cs := by
  constructor
  · rintro rfl
    exact ⟨areRuns_charRuns cs, List.flatten_splitBy _ _⟩
  · rintro ⟨hruns, rfl⟩
    refine (List.splitBy_flatten ?solid ?alike ?apart).symm
    case solid => exact fun hmem => hruns.ne_nil [] hmem rfl
    case alike =>
      intro run hrun
      refine List.Pairwise.isChain (List.pairwise_of_forall_mem_list fun a ha b hb => ?_)
      rw [hruns.uniform run hrun a ha, hruns.uniform run hrun b hb, beq_self_eq_true]
    case apart =>
      refine hruns.apart.imp_of_mem_imp fun a b ha hb hdiffer => ?_
      refine ⟨hruns.ne_nil a ha, hruns.ne_nil b hb, ?_⟩
      rw [hruns.uniform a ha _ (List.getLast_mem _), hruns.uniform b hb _ (List.head_mem _),
        beq_eq_false_iff_ne]
      exact hdiffer

/-! ## The value of digits -/

/-- Numbers compare by what stands in front of their last digits, and then by these. -/
theorem compare_leading {unit m n : Nat} (hm : m < unit) (hn : n < unit) (q r : Nat) :
    Ord.compare (unit * q + m) (unit * r + n) = (Ord.compare q r).then (Ord.compare m n) := by
  have hless : ∀ {q r m n : Nat}, q < r → m < unit → unit * q + m < unit * r + n := by
    intro q r m n hlt hm
    have hmul : unit * (q + 1) ≤ unit * r := Nat.mul_le_mul_left unit hlt
    rw [Nat.mul_add, Nat.mul_one] at hmul
    omega
  rcases Nat.lt_trichotomy q r with hlt | rfl | hgt
  · rw [Nat.compare_eq_lt.2 hlt, Nat.compare_eq_lt.2 (hless hlt hm), Ordering.lt_then]
  · rw [Nat.compare_eq_eq.2 (Eq.refl q), Ordering.eq_then]
    simp only [Nat.compare_eq_ite_lt, Nat.add_lt_add_iff_left]
  · rw [Nat.compare_eq_gt.2 hgt, Nat.compare_eq_gt.2 (hless hgt hn), Ordering.gt_then]

theorem digitValue_le_nine {c : Char} (h : c.isDigit = true) : digitValue c ≤ 9 :=
  Nat.sub_le_sub_right (Char.isDigit_iff_toNat.1 h).2 _

theorem compare_digitValue {c d : Char} (hc : c.isDigit = true) (hd : d.isDigit = true) :
    Ord.compare (digitValue c) (digitValue d) = Ord.compare c d := by
  have hzero := (Char.isDigit_iff_toNat.1 hc).1
  have hzero' := (Char.isDigit_iff_toNat.1 hd).1
  have hless : ∀ {c d : Char}, '0'.toNat ≤ c.toNat → c < d → digitValue c < digitValue d :=
    fun hle hlt => Nat.sub_lt_sub_right hle hlt
  rcases lt_trichotomy c d with hlt | rfl | hgt
  · have hchars : Ord.compare c d = .lt := compareOfLessAndEq_eq_lt.2 hlt
    rw [hchars, Nat.compare_eq_lt.2 (hless hzero hlt)]
  · rw [Std.LawfulEqOrd.compare_eq_iff_eq.2 (Eq.refl c), Nat.compare_eq_eq.2 rfl]
  · have hchars : Ord.compare d c = .lt := compareOfLessAndEq_eq_lt.2 hgt
    rw [Std.OrientedCmp.gt_of_lt hchars, Nat.compare_eq_gt.2 (hless hzero' hgt)]

namespace Token

theorem value_cons (c : Char) (digits : List Char) :
    value (c :: digits) = 10 ^ digits.length * digitValue c + value digits := by
  have hinit : value (c :: digits) = Nat.ofDigitChars 10 digits (digitValue c) := by
    unfold value digitValue
    rw [List.foldl_cons, Nat.mul_zero, Nat.zero_add]
    rfl
  rw [hinit, Nat.ofDigitChars_eq_ofDigitChars_zero]
  rfl

/-- Digits behind another digit are worth less than one unit of it. -/
theorem value_lt_pow {digits : List Char} (h : ∀ c ∈ digits, c.isDigit = true) :
    value digits < 10 ^ digits.length := by
  induction digits with
  | nil => exact Nat.one_pos
  | cons c digits ih =>
    obtain ⟨hc, hdigits⟩ := List.forall_mem_cons.1 h
    have hrest := ih hdigits
    have hmul := Nat.mul_le_mul_left (10 ^ digits.length) (digitValue_le_nine hc)
    rw [value_cons, List.length_cons, Nat.pow_succ]
    omega

/-- Digits of one length are in the order of their values. -/
theorem compare_value_of_length_eq {x y : List Char} (hx : ∀ c ∈ x, c.isDigit = true)
    (hy : ∀ c ∈ y, c.isDigit = true) (hlength : x.length = y.length) :
    Ord.compare (value x) (value y) = Ord.compare x y := by
  induction x generalizing y with
  | nil =>
    obtain rfl := List.eq_nil_of_length_eq_zero hlength.symm
    rfl
  | cons c x ih =>
    cases y with
    | nil => cases hlength
    | cons d y =>
      obtain ⟨hc, hx⟩ := List.forall_mem_cons.1 hx
      obtain ⟨hd, hy⟩ := List.forall_mem_cons.1 hy
      have hlength : x.length = y.length := Nat.succ.inj hlength
      have hshort := value_lt_pow hx
      rw [hlength] at hshort
      -- the first digits stand for the same unit, so they decide before the rest does
      rw [value_cons, value_cons, hlength, compare_leading hshort (value_lt_pow hy),
        compare_digitValue hc hd, ih hx hy hlength, List.compare_cons_cons]

end Token

/-- Digits, the first of which is not zero. -/
structure IsStripped (digits : List Char) : Prop where
  isDigit : ∀ c ∈ digits, c.isDigit = true
  ne_zero : ∀ c ∈ digits.head?, c ≠ '0'

namespace Token

/-- Of two numbers without leading zeros the one with fewer digits is smaller. -/
theorem value_lt_of_length_lt {x y : List Char} (hx : ∀ c ∈ x, c.isDigit = true)
    (hy : IsStripped y) (hlength : x.length < y.length) : value x < value y := by
  cases y with
  | nil => cases hlength
  | cons d y =>
    have hshort := value_lt_pow hx
    have hpow : 10 ^ x.length ≤ 10 ^ y.length :=
      Nat.pow_le_pow_right (by decide) (Nat.le_of_lt_succ hlength)
    have hdigit : 1 ≤ digitValue d := by
      have hbounds := Char.isDigit_iff_toNat.1 (hy.isDigit d List.mem_cons_self)
      have hne : d.toNat ≠ '0'.toNat := fun h => hy.ne_zero d rfl (Char.toNat_inj.1 h)
      unfold digitValue
      omega
    have hmul := Nat.mul_le_mul_left (10 ^ y.length) hdigit
    rw [value_cons]
    omega

/-- Without leading zeros, numbers are in the order of their lengths and then of their digits. -/
theorem compare_value {x y : List Char} (hx : IsStripped x) (hy : IsStripped y) :
    Ord.compare (value x) (value y) = (Ord.compare x.length y.length).then (Ord.compare x y) := by
  rcases Nat.lt_trichotomy x.length y.length with hlt | heq | hgt
  · rw [Nat.compare_eq_lt.2 hlt, Nat.compare_eq_lt.2 (value_lt_of_length_lt hx.isDigit hy hlt)]
    rfl
  · rw [Nat.compare_eq_eq.2 heq, compare_value_of_length_eq hx.isDigit hy.isDigit heq]
    rfl
  · rw [Nat.compare_eq_gt.2 hgt, Nat.compare_eq_gt.2 (value_lt_of_length_lt hy.isDigit hx hgt)]
    rfl

theorem value_dropWhile_zero (digits : List Char) :
    value (digits.dropWhile (· == '0')) = value digits := by
  induction digits with
  | nil => rfl
  | cons c digits ih =>
    by_cases hc : c = '0'
    · subst hc
      exact ih
    · rw [List.dropWhile_cons_of_neg (by simpa using hc)]

end Token

/-! ## Segments and tokens -/

/-- The token that a segment stands for. -/
def Segment.token : Segment → Token
  | numeric digits => .number (Token.value digits)
  | alpha letters => .word letters

/-- Where there are digits, they are without leading zeros. -/
def Segment.Stripped : Segment → Prop
  | numeric digits => IsStripped digits
  | alpha _ => True

theorem Segment.compare_token {x y : Segment} (hx : x.Stripped) (hy : y.Stripped) :
    Token.compare x.token y.token = Segment.compare x y := by
  cases x with
  | alpha x => cases y <;> rfl
  | numeric x =>
    cases y with
    | alpha y => rfl
    | numeric y => exact Token.compare_value hx hy

theorem ofRun?_token (run : List Char) :
    Token.ofRun? run = (Segment.ofRun? run).map Segment.token := by
  rw [Segment.ofRun?, Option.map_map]
  unfold Token.ofRun?
  rw [← runKind?]
  cases runKind? run with
  | none => rfl
  | some kind =>
    cases kind with
    -- the leading zeros that the segment lacks add nothing to the value
    | digits => exact congrArg (some ∘ Token.number) (Token.value_dropWhile_zero run).symm
    | letters => rfl

/-- The tokens of a text are those its segments stand for. -/
theorem tokens_eq_map_token (s : String) : tokens s = (segments s).map Segment.token := by
  have hrun : Token.ofRun? = fun run => (Segment.ofRun? run).map Segment.token :=
    funext ofRun?_token
  rw [segments_eq_charSegments, charSegments, List.map_filterMap, tokens, hrun]

theorem isDigit_of_ofChar? {c : Char} (h : RunKind.ofChar? c = some .digits) :
    c.isDigit = true := by
  by_contra hc
  rw [RunKind.ofChar?, if_neg hc] at h
  split at h <;> cases h

theorem stripped_of_mem_segments {s : String} {x : Segment} (h : x ∈ segments s) : x.Stripped := by
  rw [segments_eq_charSegments, charSegments, List.mem_filterMap] at h
  obtain ⟨run, hrun, hx⟩ := h
  obtain ⟨kind, hkind, rfl⟩ := Option.map_eq_some_iff.1 hx
  cases kind with
  | letters => trivial
  | digits =>
    constructor
    case isDigit =>
      intro c hc
      have hmem : c ∈ run := List.dropWhile_subset _ hc
      exact isDigit_of_ofChar? (((areRuns_charRuns s.toList).uniform run hrun c hmem).trans hkind)
    case ne_zero =>
      exact fun c hc =>
        beq_eq_false_iff_ne.1 (eq_false_of_mem_head?_dropWhile (p := (· == '0')) hc)

theorem compareLex_map {α β : Type} {cmp : α → α → Ordering} {cmp' : β → β → Ordering} {f : α → β}
    {xs ys : List α} (h : ∀ x ∈ xs, ∀ y ∈ ys, cmp' (f x) (f y) = cmp x y) :
    List.compareLex cmp' (xs.map f) (ys.map f) = List.compareLex cmp xs ys := by
  induction xs generalizing ys with
  | nil => cases ys <;> rfl
  | cons x xs ih =>
    cases ys with
    | nil => rfl
    | cons y ys =>
      obtain ⟨hx, hxs⟩ := List.forall_mem_cons.1 h
      obtain ⟨hxy, -⟩ := List.forall_mem_cons.1 hx
      have hrest := ih fun x hx y hy => hxs x hx y (List.mem_cons_of_mem _ hy)
      rw [List.map_cons, List.map_cons, List.compareLex_cons_cons, List.compareLex_cons_cons, hxy,
        hrest]

/-- **Version texts are in the order of their tokens.**  The tokens are read off the maximal runs of
digits and of letters, and there is one division into maximal runs; digit runs count as natural
numbers, and words are in the order of their bytes. -/
theorem compareText_eq_compareTokens (a b : String) :
    compareText a b = compareTokens (tokens a) (tokens b) ∧
      (∀ cs runs, runs = charRuns cs ↔ AreRuns runs ∧ runs.flatten = cs) ∧
      ∀ x y, Token.compare (.word x) (.word y) = Ord.compare (utf8 x) (utf8 y) := by
  refine ⟨?order, fun _ _ => eq_charRuns_iff, fun x y => (compare_utf8 x y).symm⟩
  case order =>
    have hsegments : ∀ x ∈ segments a, ∀ y ∈ segments b,
        Token.compare x.token y.token = Segment.compare x y := fun x hx y hy =>
      Segment.compare_token (stripped_of_mem_segments hx) (stripped_of_mem_segments hy)
    rw [tokens_eq_map_token, tokens_eq_map_token, compareTokens, compareLex_map hsegments,
      compareText]

/-- Leading zeros do not count, and no number is too large. -/
example : tokens "1.007_rc" = [.number 1, .number 7, .word ['r', 'c']] ∧
    compareText "1.00070000000000000000000" "1.7_rc" = .gt := by decide

end PackagePool.Version
