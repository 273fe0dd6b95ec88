import Datalog.Text.Decimal

/-!
# Places in a text

Reading works on what is left of a text, so a place is named by the number of
characters that still follow it.  A place named this way keeps its name when a
text is put in front of the one that holds it.  For the outside world a place is
either an offset, the number of bytes that the characters before it take in
UTF-8, or a location, a line and a column that both count from one.
-/

set_option autoImplicit false

namespace Datalog.Text

/-- The characters of `code` before the place that `remaining` characters follow. -/
def before (code : List Char) (remaining : Nat) : List Char :=
  code.take (code.length - remaining)

/-- The number of bytes that a text takes in UTF-8. -/
def byteLength : List Char → Nat
  | [] => 0
  | c :: rest => c.utf8Size + byteLength rest

/-- The offset in bytes of the place in `code` that `remaining` characters follow. -/
def offset (code : List Char) (remaining : Nat) : Nat :=
  byteLength (before code remaining)

/-- A text without its first bytes.  A character of which a byte goes is left out. -/
def dropBytes : Nat → List Char → List Char
  | 0, text => text
  | _, [] => []
  | count, c :: rest => dropBytes (count - c.utf8Size) rest

/-- The first bytes of a text.  A character of which a byte stays is kept. -/
def takeBytes : Nat → List Char → List Char
  | 0, _ => []
  | _, [] => []
  | count, c :: rest => c :: takeBytes (count - c.utf8Size) rest

/-- The place in front of a suffix is reached by the characters that precede it. -/
theorem before_append (front rest : List Char) :
    before (front ++ rest) rest.length = front := by
  simp [before]

theorem byteLength_append (front rest : List Char) :
    byteLength (front ++ rest) = byteLength front + byteLength rest := by
  induction front with
  | nil => simp [byteLength]
  | cons c front ih => simp [byteLength, ih, Nat.add_assoc]

end Datalog.Text

namespace Datalog

/-- A line and a column, both counted from one. -/
structure Location where
  line : Nat
  column : Nat
deriving DecidableEq, Repr, Inhabited

namespace Location

/-- The location of the first character of a text. -/
def start : Location := ⟨1, 1⟩

/-- The location reached by passing over a text.  A line ends at a line feed or
at a carriage return with a line feed behind it; every other character, a lone
carriage return included, takes one column. -/
def pass : Location → List Char → Location
  | location, [] => location
  | location, '\r' :: '\n' :: rest => pass ⟨location.line + 1, 1⟩ rest
  | location, '\n' :: rest => pass ⟨location.line + 1, 1⟩ rest
  | location, _ :: rest => pass ⟨location.line, location.column + 1⟩ rest

/-- The location of the place in `code` that `remaining` characters follow. -/
def ofPlace (code : List Char) (remaining : Nat) : Location :=
  start.pass (Text.before code remaining)

/-- A location as it is written in diagnostics: line, colon, column. -/
def render (location : Location) : String :=
  Text.natural location.line ++ ":" ++ Text.natural location.column

end Location

end Datalog
