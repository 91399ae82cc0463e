/-!
# Decimal numerals of a machine word

A numeral is an optional plus sign and one or more ASCII digits; leading zeros are allowed.  Digits
are read from the left, and the reading stops at the first fault: a character that is no digit, or
the digit with which the value leaves the 64-bit range.  The faults come to nothing else:
`readWord_eq_ok_iff` says that a word is read exactly from the numerals of its value.
-/

namespace PackagePool.Text

/-- Why a text is no numeral of a 64-bit word. -/
inductive NumeralError
  | empty
  | invalidDigit
  | tooLarge
  deriving DecidableEq, Repr

namespace NumeralError

/-- The message shown to the user. -/
def message : NumeralError → String
  | empty => "cannot parse integer from empty string"
  | invalidDigit => "invalid digit found in string"
  | tooLarge => "number too large to fit in target type"

end NumeralError

/-- The value of an ASCII digit. -/
def digitValue (c : Char) : Nat :=
  c.toNat - '0'.toNat

/-- Continues the value `acc` with further digits, as long as it fits a 64-bit word. -/
def readDigits (acc : Nat) : List Char → Except NumeralError Nat
  | [] => .ok acc
  | c :: rest =>
    if c.isDigit then
      let next := 10 * acc + digitValue c
      if next < UInt64.size then readDigits next rest else .error .tooLarge
    else .error .invalidDigit

/-- Reads a numeral. -/
def readWord : List Char → Except NumeralError UInt64
  | [] => .error .empty
  | ['+'] => .error .invalidDigit
  | '+' :: digits => (readDigits 0 digits).map UInt64.ofNat
  | digits => (readDigits 0 digits).map UInt64.ofNat

/-! ## What is read -/

theorem le_ofDigitChars (digits : List Char) (acc : Nat) :
    acc ≤ Nat.ofDigitChars 10 digits acc := by
  induction digits generalizing acc with
  | nil => simp
  | cons c digits ih =>
    rw [Nat.ofDigitChars_cons]
    have hrest := ih (10 * acc + (c.toNat - '0'.toNat))
    omega

/-- As long as the value of all digits fits, no initial part of them is too large. -/
theorem readDigits_eq_ok {digits : List Char} (hdigits : ∀ c ∈ digits, c.isDigit = true) {acc : Nat}
    (hfits : Nat.ofDigitChars 10 digits acc < UInt64.size) :
    readDigits acc digits = .ok (Nat.ofDigitChars 10 digits acc) := by
  induction digits generalizing acc with
  | nil => simp [readDigits]
  | cons c digits ih =>
    obtain ⟨hc, hrest⟩ := List.forall_mem_cons.1 hdigits
    rw [Nat.ofDigitChars_cons] at hfits ⊢
    have hnext : 10 * acc + digitValue c < UInt64.size :=
      Nat.lt_of_le_of_lt (le_ofDigitChars digits _) hfits
    rw [readDigits, if_pos hc]
    simp only [hnext, if_true]
    exact ih hrest hfits

theorem readWord_eq_of_digits {digits : List Char} (hne : digits ≠ [])
    (hdigits : ∀ c ∈ digits, c.isDigit = true) :
    readWord digits = (readDigits 0 digits).map UInt64.ofNat := by
  have hplus : '+' ∉ digits := fun hmem => by
    have hdigit := hdigits '+' hmem
    simp at hdigit
  unfold readWord
  split
  · exact absurd rfl hne
  · exact absurd List.mem_cons_self hplus
  · exact absurd List.mem_cons_self hplus
  · rfl

/-- What has been read are digits, and their value fits. -/
theorem of_readDigits {digits : List Char} {acc value : Nat} (hacc : acc < UInt64.size)
    (h : readDigits acc digits = .ok value) :
    (∀ c ∈ digits, c.isDigit = true) ∧ Nat.ofDigitChars 10 digits acc = value ∧
      value < UInt64.size := by
  induction digits generalizing acc with
  | nil =>
    obtain rfl := Except.ok.inj h
    exact ⟨by simp, Nat.ofDigitChars_nil, hacc⟩
  | cons c digits ih =>
    rw [readDigits] at h
    by_cases hc : c.isDigit = true
    · simp only [hc, if_true] at h
      split at h
      · rename_i hnext
        obtain ⟨hdigits, hvalue, hfits⟩ := ih hnext h
        rw [Nat.ofDigitChars_cons]
        exact ⟨List.forall_mem_cons.2 ⟨hc, hdigits⟩, hvalue, hfits⟩
      · cases h
    · rw [if_neg hc] at h
      cases h

/-- The digits write the word in base ten, possibly with leading zeros. -/
structure IsNumeral (digits : List Char) (n : UInt64) : Prop where
  ne_nil : digits ≠ []
  isDigit : ∀ c ∈ digits, c.isDigit = true
  value_eq : Nat.ofDigitChars 10 digits 0 = n.toNat

theorem map_readDigits_eq_ok_iff {digits : List Char} (hne : digits ≠ []) {n : UInt64} :
    (readDigits 0 digits).map UInt64.ofNat = .ok n ↔ IsNumeral digits n := by
  constructor
  · intro h
    cases hread : readDigits 0 digits with
    | error fault =>
      rw [hread] at h
      cases h
    | ok value =>
      rw [hread] at h
      obtain rfl := Except.ok.inj h
      obtain ⟨hdigits, hvalue, hfits⟩ := of_readDigits (by decide) hread
      exact ⟨hne, hdigits, hvalue.trans (UInt64.toNat_ofNat_of_lt' hfits).symm⟩
  · rintro ⟨-, hdigits, hvalue⟩
    have hfits : Nat.ofDigitChars 10 digits 0 < UInt64.size := by
      rw [hvalue]
      exact n.toNat_lt
    rw [readDigits_eq_ok hdigits hfits, hvalue]
    exact congrArg Except.ok UInt64.ofNat_toNat

/-- A word is read from its numerals, with or without a plus sign, and from nothing else. -/
theorem readWord_eq_ok_iff {cs : List Char} {n : UInt64} :
    readWord cs = .ok n ↔ ∃ digits, (cs = digits ∨ cs = '+' :: digits) ∧ IsNumeral digits n := by
  constructor
  · intro h
    unfold readWord at h
    split at h
    · cases h
    · cases h
    · rename_i digits hne
      exact ⟨digits, .inr rfl, (map_readDigits_eq_ok_iff hne).1 h⟩
    · rename_i hne _ _
      exact ⟨cs, .inl rfl, (map_readDigits_eq_ok_iff hne).1 h⟩
  · rintro ⟨digits, rfl | rfl, hnumeral⟩
    · rw [readWord_eq_of_digits hnumeral.ne_nil hnumeral.isDigit]
      exact (map_readDigits_eq_ok_iff hnumeral.ne_nil).2 hnumeral
    · have hsigned : readWord ('+' :: digits) = (readDigits 0 digits).map UInt64.ofNat := by
        cases digits with
        | nil => exact absurd rfl hnumeral.ne_nil
        | cons c digits => rfl
      rw [hsigned]
      exact (map_readDigits_eq_ok_iff hnumeral.ne_nil).2 hnumeral

/-! ## Printed numbers -/

theorem isDigit_of_mem_repr {n : Nat} {c : Char} (h : c ∈ n.repr.toList) : c.isDigit = true := by
  rw [Nat.repr_eq_ofList_toDigits, String.toList_ofList] at h
  exact Nat.isDigit_of_mem_toDigits (by decide) (by decide) h

/-- A printed word is a numeral of it. -/
theorem isNumeral_repr (n : UInt64) : IsNumeral n.toNat.repr.toList n where
  ne_nil := by
    rw [Nat.repr_eq_ofList_toDigits, String.toList_ofList]
    exact Nat.toDigits_ne_nil
  isDigit _ := isDigit_of_mem_repr
  value_eq := by
    rw [Nat.repr_eq_ofList_toDigits, String.toList_ofList, Nat.ofDigitChars_ten_toDigits]

end PackagePool.Text
