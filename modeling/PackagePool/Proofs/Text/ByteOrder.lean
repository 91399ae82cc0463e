import Mathlib.Data.Char
import Mathlib.Data.List.Lex
import PackagePool.Text.Bytes

/-!
# The order of texts, bytewise

Texts are compared character by character.  Comparing the bytes of their UTF-8 forms comes to the
same (`utf8_lt_iff`, `compare_utf8`), since the form of a character starts with a byte that tells
its length, longer forms belong to greater characters, and within one length the bytes are the
digits of the character, the most significant first.
-/

namespace PackagePool.Text

/-! ## Digits -/

theorem lt_quotient_or_digit {m n : Nat} (h : m < n) (base : Nat) :
    m / base < n / base ∨ m / base = n / base ∧ m % base < n % base := by
  rcases Nat.lt_or_eq_of_le (Nat.div_le_div_right (c := base) (Nat.le_of_lt h)) with hlt | heq
  · exact .inl hlt
  · have hm := Nat.div_add_mod m base
    have hn := Nat.div_add_mod n base
    rw [heq] at hm
    exact .inr ⟨heq, by omega⟩

/-- Numbers compare by their digits in base 64, four places and what is above them. -/
theorem lt_digits {m n : Nat} (h : m < n) :
    m / 262144 < n / 262144 ∨ m / 262144 = n / 262144 ∧
      (m / 4096 % 64 < n / 4096 % 64 ∨ m / 4096 % 64 = n / 4096 % 64 ∧
        (m / 64 % 64 < n / 64 % 64 ∨ m / 64 % 64 = n / 64 % 64 ∧ m % 64 < n % 64)) := by
  have htwo (k : Nat) : k / 64 / 64 = k / 4096 := Nat.div_div_eq_div_mul ..
  have hthree (k : Nat) : k / 4096 / 64 = k / 262144 := Nat.div_div_eq_div_mul ..
  rcases lt_quotient_or_digit h 64 with hlt | ⟨heq, hdigit⟩
  · rcases lt_quotient_or_digit hlt 64 with hlt | ⟨heq, hdigit⟩
    · rw [htwo, htwo] at hlt
      rcases lt_quotient_or_digit hlt 64 with hlt | ⟨heq, hdigit⟩
      · rw [hthree, hthree] at hlt
        exact .inl hlt
      · grind
    · grind
  · grind

/-- A byte of a longer form carries its digit below the bits that mark it. -/
theorem toNat_ofNat_mod_add {n size mark : Nat} (hsize : 0 < size) (hfits : size + mark ≤ 256) :
    (UInt8.ofNat (n % size + mark)).toNat = n % size + mark := by
  have hdigit := Nat.mod_lt n hsize
  rw [UInt8.toNat_ofNat', Nat.mod_eq_of_lt (by omega)]

/-! ## Characters -/

/-- The form of a character decides before what stands behind it. -/
theorem utf8EncodeChar_append_lt {c d : Char} (h : c < d) (xs ys : List UInt8) :
    String.utf8EncodeChar c ++ xs < String.utf8EncodeChar d ++ ys := by
  have hlt : c.val.toNat < d.val.toNat := h
  have hbound : d.val.toNat < 1114112 := by
    rcases d.valid with hlow | ⟨-, hhigh⟩
    · omega
    · exact hhigh
  have hdigits := lt_digits hlt
  have hlead {n : Nat} (hn : n < 1114112) : n / 262144 % 8 = n / 262144 :=
    Nat.mod_eq_of_lt (by omega)
  have hleadc := hlead (Nat.lt_trans hlt hbound)
  have hleadd := hlead hbound
  have hone (n : Nat) : (UInt8.ofNat (n % 64 + 128)).toNat = n % 64 + 128 :=
    toNat_ofNat_mod_add (by decide) (by decide)
  have htwo (n : Nat) : (UInt8.ofNat (n % 32 + 192)).toNat = n % 32 + 192 :=
    toNat_ofNat_mod_add (by decide) (by decide)
  have hthree (n : Nat) : (UInt8.ofNat (n % 16 + 224)).toNat = n % 16 + 224 :=
    toNat_ofNat_mod_add (by decide) (by decide)
  have hfour (n : Nat) : (UInt8.ofNat (n % 8 + 240)).toNat = n % 8 + 240 :=
    toNat_ofNat_mod_add (by decide) (by decide)
  -- one case for each pair of lengths
  simp only [String.utf8EncodeChar]
  split_ifs <;>
    simp only [List.cons_append, List.nil_append, List.cons_lt_cons_iff, UInt8.lt_iff_toNat_lt,
      ← UInt8.toNat_inj, hone, htwo, hthree, hfour, UInt8.toNat_ofNat'] <;>
    omega

/-! ## Texts -/

theorem utf8_lt_of_lt {cs ds : List Char} (h : cs < ds) : utf8 cs < utf8 ds := by
  induction cs generalizing ds with
  | nil =>
    cases ds with
    | nil => exact absurd h (List.not_lt_nil _)
    | cons d ds =>
      obtain ⟨byte, rest, hform⟩ := List.exists_cons_of_ne_nil
        (List.ne_nil_of_length_pos (length_utf8_pos (List.cons_ne_nil d ds)))
      rw [hform]
      exact List.nil_lt_cons _ _
  | cons c cs ih =>
    cases ds with
    | nil => exact absurd h (List.not_lt_nil _)
    | cons d ds =>
      rcases List.cons_lt_cons_iff.1 h with hlt | ⟨rfl, hlt⟩
      · exact utf8EncodeChar_append_lt hlt _ _
      · exact List.append_left_lt (ih hlt)

/-- Texts are in the order of their bytes. -/
theorem utf8_lt_iff {cs ds : List Char} : utf8 cs < utf8 ds ↔ cs < ds := by
  constructor
  · intro h
    rcases lt_trichotomy cs ds with hlt | rfl | hgt
    · exact hlt
    · exact absurd h (List.lt_irrefl _)
    · exact absurd h (List.lt_asymm (utf8_lt_of_lt hgt))
  · exact utf8_lt_of_lt

theorem compare_list_eq_lt_iff {α : Type} [Ord α] [LT α] [Std.LawfulEqOrd α]
    (h : ∀ a b : α, Ord.compare a b = .lt ↔ a < b) {xs ys : List α} :
    Ord.compare xs ys = .lt ↔ xs < ys := by
  induction xs generalizing ys with
  | nil => cases ys <;> simp
  | cons x xs ih =>
    cases ys with
    | nil => simp
    | cons y ys =>
      rw [List.compare_cons_cons, Ordering.then_eq_lt, h, Std.LawfulEqOrd.compare_eq_iff_eq, ih,
        List.cons_lt_cons_iff]

/-- Comparing texts and comparing their bytes come to the same. -/
theorem compare_utf8 (cs ds : List Char) : Ord.compare (utf8 cs) (utf8 ds) = Ord.compare cs ds := by
  have hchars {cs ds : List Char} (hlt : cs < ds) : Ord.compare cs ds = .lt :=
    (compare_list_eq_lt_iff fun _ _ => compareOfLessAndEq_eq_lt).2 hlt
  have hbytes {cs ds : List Char} (hlt : cs < ds) : Ord.compare (utf8 cs) (utf8 ds) = .lt :=
    (compare_list_eq_lt_iff fun _ _ => Std.compare_eq_lt).2 (utf8_lt_of_lt hlt)
  rcases lt_trichotomy cs ds with hlt | rfl | hgt
  · rw [hchars hlt, hbytes hlt]
  · rw [Std.LawfulEqOrd.compare_eq_iff_eq.2 rfl, Std.LawfulEqOrd.compare_eq_iff_eq.2 rfl]
  · rw [Std.OrientedCmp.gt_of_lt (hchars hgt), Std.OrientedCmp.gt_of_lt (hbytes hgt)]

end PackagePool.Text
