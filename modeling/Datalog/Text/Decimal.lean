/-!
# Decimal numerals

Integers are written in base ten with a minus sign in front of the negative
ones.  Reading allows leading zeros, and a minus sign in front of zero.
-/

set_option autoImplicit false

namespace Datalog.Text

/-- The decimal form of an integer. -/
def decimal : Int → List Char
  | .ofNat n => Nat.toDigits 10 n
  | .negSucc n => '-' :: Nat.toDigits 10 (n + 1)

/-- The integer that a decimal numeral denotes. -/
def ofDecimal : List Char → Int
  | '-' :: digits => -(Nat.ofDigitChars 10 digits 0 : Int)
  | digits => (Nat.ofDigitChars 10 digits 0 : Int)

/-- The decimal form of a natural number, as a string. -/
def natural (n : Nat) : String := String.ofList (Nat.toDigits 10 n)

end Datalog.Text
