import Datalog.Text.Blank

/-!
# Recovery

A malformed statement is passed over.  Reading goes on behind the next full stop
or in front of the next declaration, whichever comes first; full stops inside
string constants and comments do not count.  The declaration that is itself
malformed must not be met again, so a declaration counts only behind something
that is neither blank nor a comment.
-/

set_option autoImplicit false

namespace Datalog.Recovery

mutual
/-- What is left behind the end of a statement.  The flag tells whether something
that belongs to the statement has been passed. -/
def passCode (begun : Bool) : List Char → List Char
  | [] => []
  | '/' :: '/' :: rest => passLine begun rest
  | '/' :: '*' :: rest => passBlock begun rest
  | '"' :: rest => passString rest
  | '.' :: rest =>
    if "decl".toList.isPrefixOf rest then
      if begun then '.' :: rest else passCode true rest
    else rest
  | c :: rest => passCode (begun || !Text.isBlank c) rest

/-- What is left when the statement goes on behind a comment that ends with its line. -/
def passLine (begun : Bool) : List Char → List Char
  | [] => []
  | '\n' :: rest => passCode begun rest
  | '\r' :: rest => passCode begun rest
  | _ :: rest => passLine begun rest

/-- What is left when the statement goes on behind a comment that has to be closed. -/
def passBlock (begun : Bool) : List Char → List Char
  | [] => []
  | '*' :: '/' :: rest => passCode begun rest
  | _ :: rest => passBlock begun rest

/-- What is left when the statement goes on behind a string constant. -/
def passString : List Char → List Char
  | [] => []
  | ['\\'] => []
  | '\\' :: _ :: rest => passString rest
  | '"' :: rest => passCode true rest
  | _ :: rest => passString rest
end

/-- Where reading goes on when the statement at the start of a text is malformed. -/
def resume (text : List Char) : List Char := passCode false text

end Datalog.Recovery
