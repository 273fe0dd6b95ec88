/-!
# How alike two texts are

The likeness of two texts is a number from zero to one.  Characters of the two
texts are paired when they are equal and stand at about the same place; the
likeness grows with the share of characters that are paired, with the share of
pairs that keep their order, and with the length of the beginning that the texts
have in common.
-/

set_option autoImplicit false

namespace Datalog.Text

/-- How many characters two texts have in common at their beginning. -/
def commonBeginning : List Char → List Char → Nat
  | c :: text, d :: other => if c = d then commonBeginning text other + 1 else 0
  | _, _ => 0

/-- How far apart two characters may stand that are paired. -/
def pairingReach (text other : List Char) : Nat :=
  max text.length other.length / 2 - 1

/-- Where a character finds its partner: at the first free place of the other
text that holds the same character and is within reach of the place `index`. -/
def partner? (other : List Char) (reach : Nat) (taken : List Nat) (c : Char) (index : Nat) :
    Option Nat :=
  (List.range other.length).find? fun place =>
    index ≤ place + reach && place ≤ index + reach && other[place]? == some c &&
      !taken.contains place

/-- The places of the partners that the characters of a text find, in the order
of the text.  The places that were found already are given last one first. -/
def partners (other : List Char) (reach : Nat) : List Char → Nat → List Nat → List Nat
  | [], _, taken => taken.reverse
  | c :: text, index, taken =>
    match partner? other reach taken c index with
    | some place => partners other reach text (index + 1) (place :: taken)
    | none => partners other reach text (index + 1) taken

/-- How many places come before the place in front of them. -/
def descents : List Nat → Nat
  | place :: next :: rest => (if next < place then 1 else 0) + descents (next :: rest)
  | _ => 0

/-- The likeness of two texts as far as their pairs show it: the mean of the
share of the first text that is paired, the share of the second text, and the
share of the pairs that keep their order. -/
def pairLikeness (text other : List Char) : Rat :=
  let places := partners other (pairingReach text other) text 0 []
  if places.isEmpty then 0
  else
    let paired : Rat := places.length
    (paired / text.length + paired / other.length +
      (paired - descents places) / paired) / 3

/-- The likeness of two texts.  Every character of a common beginning takes away
a tenth of what the pairs leave open. -/
def likeness (text other : List Char) : Rat :=
  if text = other then 1
  else
    let shown := pairLikeness text other
    let raised := shown + commonBeginning text other / 10 * (1 - shown)
    if raised < 1 then raised else 1

/-- The candidate that is most like a text, the first of them if there are
several, provided that the likeness is above four fifths. -/
def mostAlike? {α : Type} (name : α → List Char) (candidates : List α) (text : List Char) :
    Option α :=
  (candidates.foldl (fun best candidate =>
    let found := likeness text (name candidate)
    if 4 / 5 < found && best.all (fun (other : α × Rat) => other.2 < found) then
      some (candidate, found)
    else best) none).map Prod.fst

end Datalog.Text
