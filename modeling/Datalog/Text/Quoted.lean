/-!
# Quoted text

A string constant is written between quotes, with a backslash in front of what
could not stand there by itself.  `escape` writes the interior and `unescape`
reads it.  Reading is more generous than writing: a backslash in front of a
character that has no short form stands for itself, and so does a backslash at
the very end.
-/

set_option autoImplicit false

namespace Datalog.Text

/-- The interior of the quoted form of a text. -/
def escape : List Char → List Char
  | [] => []
  | '"' :: rest => '\\' :: '"' :: escape rest
  | '\\' :: rest => '\\' :: '\\' :: escape rest
  | '\n' :: rest => '\\' :: 'n' :: escape rest
  | '\t' :: rest => '\\' :: 't' :: escape rest
  | c :: rest => c :: escape rest

/-- The text that an interior stands for. -/
def unescape : List Char → List Char
  | '\\' :: 'n' :: rest => '\n' :: unescape rest
  | '\\' :: 't' :: rest => '\t' :: unescape rest
  | '\\' :: '"' :: rest => '"' :: unescape rest
  | '\\' :: '\\' :: rest => '\\' :: unescape rest
  | c :: rest => c :: unescape rest
  | [] => []

/-- The quoted form of a text. -/
def quote (text : List Char) : List Char :=
  '"' :: (escape text ++ ['"'])

end Datalog.Text
