import Datalog.Grammar.Phrase

/-!
# Faults

A text that a phrase refuses has a fault: the furthest place at which a
production was missed, and the productions that were expected there.
-/

set_option autoImplicit false

namespace Datalog.Grammar

/-- What was expected at a place in a text, which is named by the number of
characters that remain there. -/
structure Fault where
  expected : List Production
  remaining : Nat
deriving DecidableEq, Repr, Inhabited

namespace Fault

/-- The fault that a trail leads to. -/
def ofTrail (trail : Trail) : Fault :=
  ⟨Production.all.filter trail.missed.contains, trail.remaining⟩

/-- The wording of a fault.  Productions with one description are listed once. -/
def message (fault : Fault) : String :=
  "syntax error, " ++
    if fault.expected.isEmpty then "unexpected input"
    else "expected " ++ " or ".intercalate (fault.expected.map Production.description).eraseDups

end Fault

/-- Why a phrase refuses a text. -/
def Phrase.fault {α : Type} (phrase : Phrase α) (text : List Char) : Fault :=
  .ofTrail (phrase.attempt text (.start text)).2

/-- Reads a phrase at the start of a text or tells why the text is refused. -/
def Phrase.parse {α : Type} (phrase : Phrase α) (text : List Char) :
    Except Fault (α × List Char) :=
  match phrase.read text with
  | some found => .ok found
  | none => .error (phrase.fault text)

end Datalog.Grammar
