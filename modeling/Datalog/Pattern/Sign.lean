import Datalog.Pattern.Flags

/-!
# Signs of patterns

The smallest parts of a pattern are signs.  Those that stand for a kind of
characters, for the border of a word or for a letter without its case can be
used only where nothing has to be known about the characters of Unicode; and
where characters are bytes, nothing can be used that takes in a part of a
character.
-/

set_option autoImplicit false

namespace Datalog.Pattern

/-- The smallest parts of a pattern. -/
inductive Sign where
  /-- A character, perhaps written by the number of a byte. -/
  | literal (c : Char) (byByte : Bool)
  /-- Every character of a line. -/
  | anything
  /-- A place between two characters, perhaps the border of a word. -/
  | place (ofWord : Bool)
  /-- A kind of characters, or all others. -/
  | kind (negated : Bool)
deriving DecidableEq, Repr

namespace Sign

/-- Whether a sign can be used under the given flags. -/
def usable (flags : Flags) : Sign → Bool
  | .literal c byByte =>
    if flags.unicode then !flags.caseless else !byByte || c.toNat < 0x80
  | .anything => flags.unicode
  | .place ofWord => !ofWord || !flags.unicode
  | .kind negated => !flags.unicode && !negated

/-- Whether a sign can be used inside square brackets. -/
def usableInside (flags : Flags) : Sign → Bool
  | .literal c _ => if flags.unicode then !flags.caseless else c.toNat < 0x80
  | .kind negated => !flags.unicode && !negated
  | _ => false

/-- Whether a character is a digit in base sixteen. -/
def isHexDigit (c : Char) : Bool :=
  c.isDigit || ('a' ≤ c && c ≤ 'f') || ('A' ≤ c && c ≤ 'F')

/-- The value of a digit in base sixteen. -/
def hexDigit (c : Char) : Nat :=
  if c.isDigit then c.toNat - 48 else if c ≤ 'F' then c.toNat - 55 else c.toNat - 87

/-- Reads a number of digits in base sixteen. -/
def readHex? (flags : Flags) : Nat → Nat → List Char → Option (Nat × List Char)
  | 0, value, text => some (value, text)
  | count + 1, value, text =>
    match flags.skip text with
    | c :: rest =>
      if isHexDigit c then readHex? flags count (value * 16 + hexDigit c) rest else none
    | [] => none

/-- Reads a character that is written by its number. -/
def readNumbered? (flags : Flags) (digits : Nat) (text : List Char) :
    Option (Sign × List Char) :=
  match readHex? flags digits 0 text with
  | some (value, rest) =>
    if value.isValidChar then some (.literal (Char.ofNat value) (digits == 2), flags.skip rest)
    else none
  | none => none

/-- The control characters that have a letter. -/
def control? : Char → Option Char
  | 'a' => some '\x07'
  | 'f' => some '\x0c'
  | 't' => some '\t'
  | 'n' => some '\n'
  | 'r' => some '\r'
  | 'v' => some '\x0b'
  | _ => none

/-- Whether a backslash in front of a character leaves the character as it is. -/
def isEscapable (c : Char) : Bool :=
  c.toNat < 0x80 && !c.isAlphanum && c != '<' && c != '>'

/-- Reads what stands behind a backslash. -/
def readEscape? (flags : Flags) : List Char → Option (Sign × List Char)
  | [] => none
  | 'x' :: rest => readNumbered? flags 2 rest
  | 'u' :: rest => readNumbered? flags 4 rest
  | 'U' :: rest => readNumbered? flags 8 rest
  | c :: rest =>
    if isEscapable c then some (.literal c false, rest)
    else if ['d', 's', 'w'].contains c then some (.kind false, rest)
    else if ['D', 'S', 'W'].contains c then some (.kind true, rest)
    else if ['A', 'z'].contains c then some (.place false, rest)
    else if ['b', 'B', '<', '>'].contains c then some (.place true, rest)
    else (control? c).map fun control => (.literal control false, rest)

end Sign

end Datalog.Pattern
