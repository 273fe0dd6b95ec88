import Datalog.Grammar.Production

/-!
# Trails

A text that is refused has usually been tried in many ways.  What is reported is
the furthest place at which a production was missed, and the productions that
were missed there.  A trail keeps these two while the text is being tried, and
turning back does not undo it.

A production is missed at the place where it began.  Missing it stands for
whatever was missed inside it at that same place, since a reader is better
served by the name of the larger phrase.  There is one exception: when exactly
one thing was missed inside, the smaller phrase says more, and it is kept.
-/

set_option autoImplicit false

namespace Datalog.Grammar

/-- The furthest place at which a production has been missed, named by the number
of characters that remain there, and the productions missed at it. -/
structure Trail where
  remaining : Nat
  missed : List Production
deriving DecidableEq, Repr

namespace Trail

/-- The trail before anything has been tried. -/
def start (text : List Char) : Trail := ⟨text.length, []⟩

/-- What has been missed at a place, as far as the trail knows. -/
def missedAt (trail : Trail) (remaining : Nat) : List Production :=
  if trail.remaining = remaining then trail.missed else []

/-- The trail after a production has been missed that began at the given place.
The first trail is the one with which the production was begun, the second one
has also seen what happened inside it. -/
def miss (production : Production) (remaining : Nat) (begun inside : Trail) : Trail :=
  let mark := (begun.missedAt remaining).length
  let missed := inside.missedAt remaining
  if missed.length - mark = 1 then inside
  else if remaining ≤ inside.remaining then ⟨remaining, missed.take mark ++ [production]⟩
  else inside

/-- Missing a production moves the furthest place forward or not at all. -/
theorem remaining_miss_le (production : Production) (remaining : Nat) (begun inside : Trail) :
    (miss production remaining begun inside).remaining ≤ inside.remaining := by
  simp only [miss]
  split
  · exact Nat.le_refl _
  · split
    · assumption
    · exact Nat.le_refl _

end Trail

end Datalog.Grammar
