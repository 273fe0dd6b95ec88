import Datalog.Proofs.Grammar.Lexical

/-!
# Decimal numerals are read back

The decimal form of an integer denotes the integer, and is a numeral wherever no
character of a name follows it.
-/

set_option autoImplicit false

namespace Datalog.Text

theorem isDigit_of_mem_toDigits {n : Nat} {c : Char} (member : c ∈ Nat.toDigits 10 n) :
    c.isDigit = true :=
  Nat.isDigit_of_mem_toDigits (by decide) (by decide) member

/-- What starts with a digit has no sign. -/
theorem ofDecimal_of_digits {digits : List Char} (all : ∀ c ∈ digits, c.isDigit = true) :
    ofDecimal digits = (Nat.ofDigitChars 10 digits 0 : Int) := by
  cases digits with
  | nil => rfl
  | cons c rest =>
      refine ofDecimal.eq_2 (c :: rest) fun rest' same => ?_
      obtain ⟨rfl, -⟩ := List.cons.inj same
      exact absurd (all '-' List.mem_cons_self) (by decide)

/-- **The decimal form of an integer denotes it.** -/
theorem ofDecimal_decimal (value : Int) : ofDecimal (decimal value) = value := by
  cases value with
  | ofNat n =>
      rw [decimal, ofDecimal_of_digits fun c member => isDigit_of_mem_toDigits member,
        Nat.ofDigitChars_ten_toDigits]
      rfl
  | negSucc n =>
      rw [decimal, ofDecimal, Nat.ofDigitChars_ten_toDigits]
      rfl

/-- The decimal form of an integer is a numeral. -/
theorem numberText_decimal (value : Int) {rest : List Char}
    (ends : Grammar.beginsInName rest = false) :
    Grammar.NumberText (decimal value ++ rest) (decimal value) rest := by
  refine ⟨rfl, ?_, ends⟩
  cases value with
  | ofNat n =>
      exact ⟨Nat.toDigits 10 n, Nat.toDigits_ne_nil,
        fun c member => isDigit_of_mem_toDigits member, .inl rfl⟩
  | negSucc n =>
      exact ⟨Nat.toDigits 10 (n + 1), Nat.toDigits_ne_nil,
        fun c member => isDigit_of_mem_toDigits member, .inr rfl⟩

end Datalog.Text
