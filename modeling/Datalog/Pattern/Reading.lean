import Datalog.Pattern.Bracket
import Datalog.Text.Alphanumeric

/-!
# Reading patterns

A pattern describes a set of texts.  It consists of signs, classes of characters
and groups, which can be repeated, and of branches between them.  Nothing is
known here about the characters of Unicode beyond their numbers, so a pattern
that depends on such knowledge cannot be used; neither can counts in curly
brackets.  A pattern whose parts are nested too deeply is refused as well.
-/

set_option autoImplicit false

namespace Datalog.Pattern

/-- How deeply a pattern may be nested. -/
def deepest : Nat := 250

/-- A part of a pattern: whether it can be repeated, and how deeply it is nested. -/
structure Piece where
  repeatable : Bool := true
  nesting : Nat := 0
deriving DecidableEq, Repr

/-- What surrounds a group: the flags, the pieces in front of it, and the branches
in front of these. -/
structure Surroundings where
  flags : Flags := {}
  pieces : List Piece := []
  branches : List Nat := []
deriving DecidableEq, Repr

/-- What has been read of a pattern: the innermost group that is open, what
surrounds it, and the names that groups have been given. -/
structure Reading extends Surroundings where
  groups : List Surroundings := []
  names : List (List Char) := []
deriving DecidableEq, Repr

namespace Reading

/-- How deeply the pieces of the last branch are nested. -/
def branch (reading : Reading) : Nat := joined (reading.pieces.map Piece.nesting)

/-- How deeply the innermost open group is nested. -/
def nesting (reading : Reading) : Nat := joined (reading.branch :: reading.branches)

/-- Adds a piece. -/
def add (reading : Reading) (piece : Piece) : Reading :=
  { reading with pieces := piece :: reading.pieces }

/-- Adds a sign if it can be used. -/
def addSign? (reading : Reading) (sign : Sign) : Option Reading :=
  if sign.usable reading.flags then some (reading.add {}) else none

/-- Starts a branch. -/
def startBranch (reading : Reading) : Reading :=
  { reading with pieces := [], branches := reading.branch :: reading.branches }

/-- Opens a group, inside which the given flags hold. -/
def openGroup (reading : Reading) (flags : Flags) : Reading :=
  { reading with
    flags := flags, pieces := [], branches := []
    groups := reading.toSurroundings :: reading.groups }

/-- Closes the innermost group, behind which the flags hold that held in front. -/
def closeGroup? (reading : Reading) : Option Reading :=
  match reading.groups with
  | [] => none
  | surroundings :: groups =>
    some { surroundings with
      pieces := { nesting := reading.nesting + 1 } :: surroundings.pieces
      groups := groups, names := reading.names }

/-- Repeats the last piece. -/
def repeat? (reading : Reading) : Option Reading :=
  match reading.pieces with
  | piece :: pieces =>
    if piece.repeatable then
      some { reading with pieces := { nesting := piece.nesting + 1 } :: pieces }
    else none
  | [] => none

/-- Whether a text may be the name of a group. -/
def isGroupName : List Char → Bool
  | first :: rest =>
    (first == '_' || Text.isAlphabetic first) &&
      rest.all fun c => ['_', '.', '[', ']'].contains c || Text.isAlphanumeric c
  | [] => false

/-- Reads a group with a name.  No two groups have the same name. -/
def readNamed? (reading : Reading) (text : List Char) : Option (Reading × List Char) :=
  let name := text.takeWhile (· != '>')
  match text.dropWhile (· != '>') with
  | _ :: rest =>
    if isGroupName name && !reading.names.contains name then
      some ({ reading.openGroup reading.flags with names := name :: reading.names }, rest)
    else none
  | [] => none

/-- Reads a change of flags, for a group or for what follows. -/
def readChange? (reading : Reading) (text : List Char) : Option (Reading × List Char) :=
  let isLetter := fun c => c != ':' && c != ')'
  let change := text.takeWhile isLetter
  if Flags.isChange change then
    match text.dropWhile isLetter with
    | ':' :: rest => some (reading.openGroup (reading.flags.change change), rest)
    | ')' :: rest =>
      if change.isEmpty then none
      else
        some ({ reading.add { repeatable := false } with
          flags := reading.flags.change change }, rest)
    | _ => none
  else none

/-- Reads what stands behind an opening bracket. -/
def readGroup? (reading : Reading) (text : List Char) : Option (Reading × List Char) :=
  match reading.flags.skip text with
  | '?' :: 'P' :: '<' :: rest => reading.readNamed? rest
  | '?' :: '<' :: rest => reading.readNamed? rest
  | '?' :: rest => reading.readChange? rest
  | rest => some (reading.openGroup reading.flags, rest)

/-- A text behind a sign of repetition, without the question mark that asks for as
few repetitions as possible. -/
def behindRepetition : List Char → List Char
  | '?' :: rest => rest
  | rest => rest

/-- Reads the next part of a pattern. -/
def step? (reading : Reading) : List Char → Option (Reading × List Char)
  | '(' :: rest => reading.readGroup? rest
  | ')' :: rest => reading.closeGroup?.map (·, rest)
  | '|' :: rest => some (reading.startBranch, rest)
  | '[' :: rest =>
    (readBracket? reading.flags rest).map fun (nesting, rest) =>
      (reading.add { nesting := nesting }, rest)
  | '?' :: rest => reading.repeat?.map (·, behindRepetition rest)
  | '*' :: rest => reading.repeat?.map (·, behindRepetition rest)
  | '+' :: rest => reading.repeat?.map (·, behindRepetition rest)
  | '\x7b' :: _ => none
  | '\\' :: rest =>
    (Sign.readEscape? reading.flags rest).bind fun (sign, rest) =>
      (reading.addSign? sign).map (·, rest)
  | '.' :: rest => (reading.addSign? .anything).map (·, rest)
  | '^' :: rest => (reading.addSign? (.place false)).map (·, rest)
  | '$' :: rest => (reading.addSign? (.place false)).map (·, rest)
  | c :: rest => (reading.addSign? (.literal c false)).map (·, rest)
  | [] => none

/-- Reads parts of a pattern until the text ends. -/
def readAll? : Nat → Reading → List Char → Option Reading
  | fuel, reading, text =>
    match fuel, reading.flags.skip text with
    | _, [] => some reading
    | 0, _ => none
    | fuel + 1, text =>
      match reading.step? text with
      | some (reading, rest) => readAll? fuel reading rest
      | none => none

end Reading

/-- Whether a text is a pattern that can be used. -/
def isPattern (text : List Char) : Bool :=
  match Reading.readAll? text.length {} text with
  | some reading => reading.groups.isEmpty && reading.nesting ≤ deepest
  | none => false

end Datalog.Pattern
