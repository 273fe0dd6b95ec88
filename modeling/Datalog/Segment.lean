import Datalog.Grammar.Fault
import Datalog.Grammar.Statement
import Datalog.Recovery

/-!
# Segments

A text is read one statement at a time.  It falls into segments: each of them
holds a statement together with the layout in front of it, or a piece that was
passed over because it is no statement.  Layout at the end of the text belongs
to no segment.
-/

set_option autoImplicit false

namespace Datalog

open Grammar

/-- What a segment was found to be. -/
inductive Reading where
  /-- A statement that starts at a place, named by the characters that remain. -/
  | statement (start : Nat) (statement : Statement)
  /-- No statement. -/
  | malformed (fault : Fault)
deriving Inhabited

/-- A piece of a text.  The places at which its reading began and at which
reading went on are named by the numbers of characters that remain there. -/
structure Segment where
  begins : Nat
  ends : Nat
  reading : Reading
deriving Inhabited

namespace Segment

/-- The segment at the start of a text and what is left behind it. -/
def next (text : List Char) : Segment × List Char :=
  match nextStatement.parse text with
  | .ok (statement, rest) =>
    (⟨text.length, rest.length, .statement (skip text).length statement⟩, rest)
  | .error fault =>
    let rest := Recovery.resume text
    (⟨text.length, rest.length, .malformed fault⟩, rest)

/-- The first segments of a text, up to the given number. -/
def upTo : Nat → List Char → List Segment
  | 0, _ => []
  | limit + 1, text =>
    if (skip text).isEmpty then []
    else
      let (segment, rest) := next text
      segment :: upTo limit rest

/-- The segments of a text.  Each of them takes a character at least. -/
def all (text : List Char) : List Segment := upTo text.length text

end Segment

end Datalog
