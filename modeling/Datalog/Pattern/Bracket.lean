import Datalog.Pattern.Sign

/-!
# Square brackets in patterns

A class of characters is written in square brackets: characters, ranges of
characters, the names of kinds and other classes, which are taken together, and
operations between what has been taken together so far and what follows.

What is kept of a class is how deeply its parts are nested.  A part that stands alone
is as deep as it is, and several parts together are one level deeper than the deepest
of them.
-/

set_option autoImplicit false

namespace Datalog.Pattern

/-- How deeply parts are nested that stand together. -/
def joined : List Nat → Nat
  | [] => 0
  | [nesting] => nesting
  | nestings => nestings.foldr max 0 + 1

/-- A class that has not been closed: how deeply the members are nested that were
read since the last operation, and the left side of that operation. -/
structure OpenClass where
  members : List Nat := []
  left? : Option Nat := none
deriving DecidableEq, Repr

namespace OpenClass

/-- How deeply what has been read of a class is nested. -/
def nesting (openClass : OpenClass) : Nat :=
  match openClass.left? with
  | none => joined openClass.members
  | some left => max left (joined openClass.members) + 1

/-- A class with one more member. -/
def add (openClass : OpenClass) (nesting : Nat) : OpenClass :=
  { openClass with members := nesting :: openClass.members }

/-- A class with an operation behind what has been read of it. -/
def operate (openClass : OpenClass) : OpenClass := { left? := some openClass.nesting }

end OpenClass

/-- The names of the kinds of characters that stand between colons. -/
def kindNames : List String :=
  ["alnum", "alpha", "ascii", "blank", "cntrl", "digit", "graph", "lower", "print", "punct",
   "space", "upper", "word", "xdigit"]

/-- Reads the name of a kind behind a square bracket, and says whether the kind is
negated. -/
def readKind? : List Char → Option (Bool × List Char)
  | ':' :: text =>
    let negated := text.head? == some '^'
    let text := if negated then text.drop 1 else text
    match text.dropWhile (· != ':') with
    | ':' :: ']' :: rest =>
      if kindNames.contains (String.ofList (text.takeWhile (· != ':'))) then some (negated, rest)
      else none
    | _ => none
  | _ => none

/-- Reads the dashes at the beginning of a class, which stand for themselves, and
counts them. -/
def readDashes (flags : Flags) : Nat → List Char → Nat × List Char
  | fuel + 1, '-' :: rest =>
    let (count, rest) := readDashes flags fuel (flags.skip rest)
    (count + 1, rest)
  | _, text => (0, text)

/-- Reads the beginning of a class behind its square bracket.  A class may be
negated, and a closing bracket stands for itself as the first member. -/
def readOpening? (flags : Flags) (text : List Char) : Option (OpenClass × List Char) :=
  let text := flags.skip text
  let negated := text.head? == some '^'
  let text := if negated then flags.skip (text.drop 1) else text
  let (dashes, text) := readDashes flags text.length text
  let closing := dashes == 0 && text.head? == some ']'
  let text := if closing then flags.skip (text.drop 1) else text
  let count := if closing then 1 else dashes
  if text.isEmpty || (negated && !flags.unicode) ||
      (count != 0 && !(Sign.literal '-' false).usableInside flags) then none
  else some ({ members := List.replicate count 0 }, text)

/-- Reads a sign inside a class. -/
def readInside? (flags : Flags) : List Char → Option (Sign × List Char)
  | '\\' :: rest => Sign.readEscape? flags rest
  | c :: rest => some (.literal c false, rest)
  | [] => none

/-- Whether two signs are the ends of a range. -/
def isRange : Sign → Sign → Bool
  | .literal first _, .literal last _ => first ≤ last
  | _, _ => false

/-- Reads a member of a class: a sign, or a range of characters. -/
def readMember? (flags : Flags) (text : List Char) : Option (List Char) :=
  match readInside? flags text with
  | none => none
  | some (first, rest) =>
    let rest := flags.skip rest
    let next? := flags.next? (rest.drop 1)
    if !first.usableInside flags then none
    else if rest.head? != some '-' || next? == some ']' || next? == some '-' then some rest
    else
      match readInside? flags (flags.skip (rest.drop 1)) with
      | some (last, rest) =>
        if last.usableInside flags && isRange first last then some rest else none
      | none => none

/-- Reads the rest of a class.  The classes around it come innermost first.
Returns how deeply the outermost class is nested, and what follows it. -/
def readClass? (flags : Flags) : Nat → OpenClass → List OpenClass → List Char →
    Option (Nat × List Char)
  | 0, _, _, _ => none
  | fuel + 1, inner, outer, text =>
    match flags.skip text with
    | [] => none
    | '[' :: rest =>
      match readKind? rest with
      | some (negated, rest) =>
        if if flags.unicode then !flags.caseless else !negated then
          readClass? flags fuel (inner.add 0) outer rest
        else none
      | none =>
        match readOpening? flags rest with
        | some (opened, rest) => readClass? flags fuel opened (inner :: outer) rest
        | none => none
    | ']' :: rest =>
      match outer with
      | [] => some (inner.nesting + 1, rest)
      | around :: outer => readClass? flags fuel (around.add (inner.nesting + 1)) outer rest
    | '&' :: '&' :: rest => readClass? flags fuel inner.operate outer rest
    | '-' :: '-' :: rest => readClass? flags fuel inner.operate outer rest
    | '~' :: '~' :: rest => readClass? flags fuel inner.operate outer rest
    | text =>
      match readMember? flags text with
      | some rest => readClass? flags fuel (inner.add 0) outer rest
      | none => none

/-- Reads a class behind its first square bracket. -/
def readBracket? (flags : Flags) (text : List Char) : Option (Nat × List Char) :=
  match readOpening? flags text with
  | some (opened, rest) => readClass? flags (rest.length + 1) opened [] rest
  | none => none

end Datalog.Pattern
