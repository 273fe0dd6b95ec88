/-!
# Floating numerals

A floating numeral is a decimal numeral with a sign, a fraction and an exponent,
all of which may be missing, or one of the words for infinity and for what is no
number.
-/

set_option autoImplicit false

namespace Datalog.Text

/-- A text without a sign in front of it. -/
def unsigned : List Char → List Char
  | '+' :: rest => rest
  | '-' :: rest => rest
  | text => text

/-- Whether a text consists of digits and has at least one. -/
def isDigits (text : List Char) : Bool := !text.isEmpty && text.all Char.isDigit

/-- Whether a text is nothing or an exponent. -/
def isExponent : List Char → Bool
  | [] => true
  | 'e' :: rest => isDigits (unsigned rest)
  | 'E' :: rest => isDigits (unsigned rest)
  | _ => false

/-- Whether a text is a floating numeral without a sign.  There has to be a digit
in front of the point or behind it. -/
def isUnsignedFloating (text : List Char) : Bool :=
  let whole := text.takeWhile Char.isDigit
  match text.dropWhile Char.isDigit with
  | '.' :: rest =>
    !(whole ++ rest.takeWhile Char.isDigit).isEmpty && isExponent (rest.dropWhile Char.isDigit)
  | rest => !whole.isEmpty && isExponent rest

/-- Whether a text is a floating numeral.  The case of the words does not matter. -/
def isFloating (text : List Char) : Bool :=
  ["inf", "infinity", "nan"].contains (String.ofList (unsigned text)).toLower ||
    isUnsignedFloating (unsigned text)

end Datalog.Text
