import Datalog.Event
import Datalog.Pattern.Reading
import Datalog.Text.Floating
import Datalog.Text.Place

/-!
# Log filters

Which events reach the log is decided by directives.  A directive sets the
threshold for the targets that start with a given text, and perhaps only for the
events among them that carry a given field; where several directives speak about
an event, the most specific one decides.  A directive that names no target speaks
about all of them.
-/

set_option autoImplicit false

namespace Datalog.CommandLine

/-! ## Thresholds -/

/-- The least important level that passes; none if nothing passes. -/
abbrev Threshold := Option Level

/-- Whether a level passes a threshold. -/
def passes (threshold : Threshold) (level : Level) : Bool :=
  threshold.any fun least => level.rank ≤ least.rank

/-- The threshold behind which the given number of levels passes. -/
def thresholdOfCount? : Nat → Option Threshold
  | 0 => some none
  | 1 => some (some .error)
  | 2 => some (some .warn)
  | 3 => some (some .info)
  | 4 => some (some .debug)
  | 5 => some (some .trace)
  | _ => none

/-- The number that a word stands for: digits, perhaps behind a plus sign. -/
def count? (word : List Char) : Option Nat :=
  let digits := match word with
    | '+' :: digits => digits
    | digits => digits
  if digits.isEmpty || !digits.all Char.isDigit then none
  else some (Nat.ofDigitChars 10 digits 0)

/-- The threshold that a word stands for, which is a number of levels or the name
of the last level that passes.  Case does not matter. -/
def threshold? (word : List Char) : Option Threshold :=
  match count? word with
  | some count => thresholdOfCount? count
  | none =>
    match (String.ofList word).toLower with
    | "off" => some none
    | "error" => some (some .error)
    | "warn" => some (some .warn)
    | "info" => some (some .info)
    | "debug" => some (some .debug)
    | "trace" => some (some .trace)
    | _ => none

/-! ## Directives -/

/-- Which events of its targets a directive speaks about. -/
inductive Scope where
  | all
  /-- The events that carry a field. -/
  | carrying (field : String)
  /-- What happens inside a span of some kind.  No event here happens inside one. -/
  | inSpan
deriving DecidableEq, Repr

/-- The threshold for events at the targets that start with a text. -/
structure Directive where
  target : List Char
  scope : Scope := .all
  threshold : Threshold := some .trace
deriving DecidableEq, Repr

namespace Directive

/-- Whether a directive speaks about an event. -/
def concerns (directive : Directive) (event : Event) : Bool :=
  directive.target.isPrefixOf event.target.toList &&
    match directive.scope with
    | .all => true
    | .carrying field => event.fields.contains field
    | .inSpan => false

/-- The field that an event has to carry for a directive to speak about it. -/
def field? (directive : Directive) : Option String :=
  match directive.scope with
  | .carrying field => some field
  | _ => none

/-- How specific a directive is against another one that speaks about the same
event.  The longer target is the more specific one, then a directive about a
field, and of two fields the one that comes later in the alphabet. -/
def specificity (directive other : Directive) : Ordering :=
  (compare directive.target.length other.target.length).then
    (compare directive.field? other.field?)

/-- What is written in a directive. -/
structure Spelling where
  target : List Char
  /-- What stands in square brackets. -/
  scope? : Option Scope
  /-- What stands behind the equals sign. -/
  level? : Option (List Char)
deriving DecidableEq, Repr

/-- Whether a target may start with a character. -/
def startsTarget (c : Char) : Bool :=
  c == '-' || c == ':' || c == '_' || Text.isAlphanumeric c

/-- Reads what follows a target and a scope: nothing, or a level behind an equals
sign. -/
def readLevel? (target : List Char) (scope : Scope) : List Char → Option Spelling
  | '=' :: level => some ⟨target, some scope, some level⟩
  | rest => if rest.all Text.isBlank then some ⟨target, some scope, none⟩ else none

/-- Whether a value may be given for a field.  A value is a number or a pattern. -/
def isValue (value : List Char) : Bool := Text.isFloating value || Pattern.isPattern value

/-- The scope that a span and a field describe.  The values of fields are known
only inside spans. -/
def scope? (span field : List Char) : Option Scope :=
  match field.dropWhile (· != '=') with
  | '=' :: value => if isValue (value.takeWhile (· != '=')) then some .inSpan else none
  | _ =>
    if field.isEmpty then none
    else some (if span.isEmpty then .carrying (String.ofList field) else .inSpan)

/-- Reads the inside of square brackets and what follows them: the name of a
span, a field in curly brackets, or both.  A field is found in the text without
the blanks in front of it, but it is cut out of the text with these blanks at the
same place. -/
def readScope? (whole target text : List Char) : Option Spelling :=
  let isNameChar := fun c => c != ']' && c != '\x7b'
  let span := text.takeWhile isNameChar
  match text.dropWhile isNameChar with
  | ']' :: rest => readLevel? target .inSpan rest
  | '\x7b' :: text =>
    let size := Text.byteLength (text.takeWhile (· != '\x7d'))
    let place := Text.byteLength target + Text.byteLength span + 2
    match text.dropWhile (· != '\x7d') with
    | '\x7d' :: ']' :: rest =>
      (scope? span (Text.takeBytes size (Text.dropBytes place whole))).bind fun scope =>
        readLevel? target scope rest
    | _ => none
  | _ => none

/-- Reads a directive without the blanks in front of it. -/
def spelling? (whole : List Char) : Option Spelling :=
  match whole.dropWhile Text.isBlank with
  | '[' :: rest => readScope? whole [] rest
  | first :: rest =>
    if startsTarget first then
      let isTargetChar := fun c => c != '=' && c != '['
      let target := (first :: rest).takeWhile isTargetChar
      match (first :: rest).dropWhile isTargetChar with
      | '=' :: level => some ⟨target, none, some level⟩
      | '[' :: rest => readScope? whole target rest
      | _ => some ⟨target, none, none⟩
    else none
  | [] => none

/-- The directive that is written.  A word of its own is a threshold for
everything or else a target, and without a level everything passes. -/
def ofSpelling? (spelling : Spelling) : Option Directive :=
  match spelling with
  | ⟨word, none, none⟩ =>
    match threshold? word with
    | some threshold => some ⟨[], .all, threshold⟩
    | none => some ⟨word, .all, some .trace⟩
  | ⟨target, scope?, some (first :: rest)⟩ =>
    (threshold? (first :: rest)).map fun threshold => ⟨target, scope?.getD .all, threshold⟩
  | ⟨target, scope?, _⟩ => some ⟨target, scope?.getD .all, some .trace⟩

/-- Reads a directive.  Behind a blank it may have no level, and it speaks about
no event, because the blank counts as part of its target. -/
def ofText? (text : List Char) : Option Directive :=
  match spelling? text with
  | none => none
  | some spelling =>
    if text.head?.any Text.isBlank then
      if spelling.level?.isSome then none else some ⟨text, .all, some .trace⟩
    else ofSpelling? spelling

end Directive

/-! ## Filters -/

/-- Directives, of which the later ones replace the earlier ones about the same
events. -/
abbrev LogFilter := List Directive

namespace LogFilter

/-- The directive that decides about an event. -/
def decisive? (filter : LogFilter) (event : Event) : Option Directive :=
  (filter.filter fun directive => directive.concerns event).foldl
    (fun found directive =>
      if found.all (fun other => directive.specificity other != .lt) then some directive
      else found) none

/-- Whether an event reaches the log. -/
def admits (filter : LogFilter) (event : Event) : Bool :=
  (filter.decisive? event).any fun directive => passes directive.threshold event.level

/-- The log of a sequence of events. -/
def log (filter : LogFilter) (events : List Event) : String :=
  String.join ((events.filter filter.admits).map Event.render)

/-- Reads directives with commas between them.  Errors alone pass when there is
no directive. -/
def ofText? (text : String) : Option LogFilter :=
  match (text.toList.splitOn ',').filter fun word => !word.isEmpty with
  | [] => some [⟨[], .all, some .error⟩]
  | words => words.mapM Directive.ofText?

/-- The filter that a number of requests for more detail asks for. -/
def ofVerbosity : Nat → LogFilter
  | 0 => [⟨[], .all, some .warn⟩]
  | 1 => [⟨[], .all, some .info⟩]
  | 2 => [⟨[], .all, some .debug⟩]
  | _ => [⟨[], .all, some .trace⟩]

end LogFilter

end Datalog.CommandLine
