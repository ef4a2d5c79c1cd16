/-
# Decimal numerals

`Nat.toDigits 10` writes the numeral of a number and `digitsValue` reads one. Both ways round
nothing is lost: `digitsValue_toDigits`, and `toDigits_digitsValue` for digits that do not begin
with zero.
-/
import CallDepth.Digits
import Mathlib.Data.List.Induction

namespace CallDepth

theorem isDigit_of_mem_toDigits {value : Nat} {c : Char} (member : c ∈ Nat.toDigits 10 value) :
    isDigit c = true := by
  have digit : c.isDigit = true := Nat.isDigit_of_mem_toDigits (by decide) (by decide) member
  simpa [isDigit, Char.isDigit, Char.le_def] using digit

/-- The decimal digits of a number denote it. -/
theorem digitsValue_toDigits (value : Nat) : digitsValue (Nat.toDigits 10 value) = value := by
  have folded := @Nat.ofDigitChars_eq_foldl 10 (Nat.toDigits 10 value) 0
  rw [Nat.ofDigitChars_ten_toDigits] at folded
  exact folded.symm

/-- No zero stands in front of other digits. -/
theorem head?_toDigits_ne_zero {value : Nat} (positive : 0 < value) :
    (Nat.toDigits 10 value).head? ≠ some '0' := by
  induction value using Nat.strongRecOn with
  | ind value ih =>
      rw [Nat.toDigits_eq_if (by decide)]
      split
      · simp only [List.head?_cons, ne_eq, Option.some.injEq, Nat.digitChar_eq_zero]
        omega
      · have leading := ih (value / 10) (by omega) (by omega)
        cases digits : Nat.toDigits 10 (value / 10) with
        | nil => exact absurd digits Nat.toDigits_ne_nil
        | cons first others => simpa [digits] using leading

theorem toNat_of_isDigit {c : Char} (digit : isDigit c = true) :
    48 ≤ c.toNat ∧ c.toNat ≤ 57 := by
  simpa [isDigit, Char.le_def, UInt32.le_iff_toNat_le] using digit

theorem digitValue_lt {c : Char} (digit : isDigit c = true) : digitValue c < 10 := by
  have bounds := toNat_of_isDigit digit
  change c.toNat - 48 < 10
  omega

theorem toDigits_digitValue {c : Char} (digit : isDigit c = true) :
    Nat.toDigits 10 (digitValue c) = [c] := by
  have bounds := toNat_of_isDigit digit
  rw [Nat.toDigits_of_lt_base (digitValue_lt digit)]
  congr 1
  apply Char.toNat_inj.1
  rw [Nat.toNat_digitChar_of_lt_ten (digitValue_lt digit)]
  change 48 + (c.toNat - 48) = c.toNat
  omega

theorem digitsValue_concat (digits : List Char) (c : Char) :
    digitsValue (digits ++ [c]) = 10 * digitsValue digits + digitValue c := by
  simp [digitsValue]

/-- Digits are the numeral of the number they denote, unless a zero leads. -/
theorem toDigits_digitsValue {digits : List Char} (digit : ∀ c ∈ digits, isDigit c = true)
    (nonempty : digits ≠ []) (leading : digits.head? ≠ some '0') :
    Nat.toDigits 10 (digitsValue digits) = digits := by
  induction digits using List.reverseRecOn with
  | nil => exact absurd rfl nonempty
  | append_singleton front c ih =>
      have last := digit c (by simp)
      rw [digitsValue_concat]
      cases front with
      | nil => simpa [digitsValue] using toDigits_digitValue last
      | cons first others =>
          have before := ih (fun other member => digit other (List.mem_append_left _ member))
            (by simp) (by simpa using leading)
          -- Only zero has a numeral that begins with zero.
          have positive : 0 < digitsValue (first :: others) := by
            apply Nat.pos_of_ne_zero
            intro zero
            rw [zero] at before
            obtain ⟨rfl, -⟩ := List.cons.inj before
            exact leading rfl
          rw [← Nat.toDigits_append_toDigits (by decide) positive (digitValue_lt last), before,
            toDigits_digitValue last]

end CallDepth
