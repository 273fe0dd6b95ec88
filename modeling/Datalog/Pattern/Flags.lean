import Datalog.Text.Blank

/-!
# Flags of patterns

A pattern can change how the rest of it is read.  Three of the flags decide
whether a pattern can be used at all: whether the case of letters is ignored,
whether characters are those of Unicode or bytes, and whether blanks and
comments may stand between the signs.
-/

set_option autoImplicit false

namespace Datalog.Pattern

/-- How a part of a pattern is read. -/
structure Flags where
  /-- The case of letters is ignored. -/
  caseless : Bool := false
  /-- Characters are those of Unicode. -/
  unicode : Bool := true
  /-- Blanks and comments count for nothing. -/
  spaced : Bool := false
deriving DecidableEq, Repr, Inhabited

namespace Flags

/-- The letters of the flags. -/
def letters : List Char := ['i', 'm', 's', 'U', 'u', 'R', 'x']

/-- The value of a flag after a change: on if its letter stands in front of the
dash, off if it stands behind it. -/
def changed (change : List Char) (letter : Char) (value : Bool) : Bool :=
  if (change.takeWhile (· != '-')).contains letter then true
  else value && !change.contains letter

/-- The flags after a change. -/
def change (flags : Flags) (change : List Char) : Flags where
  caseless := changed change 'i' flags.caseless
  unicode := changed change 'u' flags.unicode
  spaced := changed change 'x' flags.spaced

/-- Whether a text describes a change: letters that occur once, and perhaps one
dash with a letter behind it. -/
def isChange (text : List Char) : Bool :=
  text.all (fun c => c == '-' || letters.contains c) && decide text.Nodup &&
    text.getLast? != some '-'

/-- A text without the blanks and comments at its beginning.  A comment starts
with a number sign and ends with its line. -/
def skipBlanks (inComment : Bool) : List Char → List Char
  | [] => []
  | c :: rest =>
    if inComment then skipBlanks (c != '\n') rest
    else if Text.isBlank c then skipBlanks false rest
    else if c == '#' then skipBlanks true rest
    else c :: rest

/-- A text without what counts for nothing at its beginning. -/
def skip (flags : Flags) (text : List Char) : List Char :=
  if flags.spaced then skipBlanks false text else text

/-- The character that stands next.  Of blanks and of one number sign nothing is
seen, but of a comment the first character is. -/
def next? (flags : Flags) (text : List Char) : Option Char :=
  if flags.spaced then
    match text.dropWhile Text.isBlank with
    | '#' :: comment => (comment.dropWhile Text.isBlank).head?
    | rest => rest.head?
  else text.head?

end Flags

end Datalog.Pattern
