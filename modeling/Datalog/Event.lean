import Datalog.Text.Decimal

/-!
# Events

What happens while a text is being read can be followed on a log.  An event is
logged under the part of the program where it happens and at a level that says
how much a follower has to care; the less important events are kept away by a
threshold.  An event carries its particulars in fields that have names.
-/

set_option autoImplicit false

namespace Datalog

/-- How important an event is, the most important level first. -/
inductive Level where
  | error
  | warn
  | info
  | debug
  | trace
deriving DecidableEq, Repr, Inhabited

namespace Level

/-- The levels from the most important one on. -/
def rank : Level → Nat
  | .error => 1
  | .warn => 2
  | .info => 3
  | .debug => 4
  | .trace => 5

/-- The name of a level in log lines, five characters wide. -/
def label : Level → String
  | .error => "ERROR"
  | .warn => " WARN"
  | .info => " INFO"
  | .debug => "DEBUG"
  | .trace => "TRACE"

end Level

/-- What can happen. -/
inductive Event where
  /-- The next line of a session is awaited from an input that is no terminal. -/
  | lineAwaited
  | inputRead (path : String) (bytes : Nat)
  | relationAppended (name : String)
  | relationRejected (name : String)
  | clauseAppended (head : String) (handle : Nat)
  | clauseRead (head : String)
  | statementRefused (offset : Nat)
  | unitRead (relations clauses errors : Nat)
deriving DecidableEq, Repr

namespace Event

/-- The level of an event. -/
def level : Event → Level
  | .inputRead _ _ => .info
  | .relationAppended _ => .trace
  | .clauseAppended _ _ => .trace
  | .clauseRead _ => .trace
  | .lineAwaited => .debug
  | .relationRejected _ => .debug
  | .statementRefused _ => .debug
  | .unitRead _ _ _ => .debug

/-- The part of the program where an event happens. -/
def target : Event → String
  | .lineAwaited => "rustyline"
  | .inputRead _ _ => "dlast"
  | .relationAppended _ | .relationRejected _ | .clauseAppended _ _ => "dlast::program"
  | .clauseRead _ | .statementRefused _ | .unitRead _ _ _ => "dlast::parser"

/-- What is said about every event of a kind. -/
def message : Event → String
  | .lineAwaited => "stdin is not a tty"
  | .inputRead _ _ => "read_input"
  | .relationAppended _ => "append_relation"
  | .relationRejected _ => "duplicate_relation_rejected"
  | .clauseAppended _ _ => "append_clause"
  | .clauseRead _ => "clause"
  | .statementRefused _ => "syntax_error"
  | .unitRead _ _ _ => "parsed_translation_unit"

/-- The particulars of an event, in the order in which they are shown. -/
def particulars : Event → List (String × String)
  | .lineAwaited => []
  | .inputRead path bytes => [("path", path), ("bytes", Text.natural bytes)]
  | .relationAppended name => [("relation", name)]
  | .relationRejected name => [("relation", name)]
  | .clauseAppended head handle => [("head", head), ("handle", Text.natural handle)]
  | .clauseRead head => [("head", head)]
  | .statementRefused offset => [("offset", Text.natural offset)]
  | .unitRead relations clauses errors =>
    [("relations", Text.natural relations), ("clauses", Text.natural clauses),
      ("errors", Text.natural errors)]

/-- Fields that an event carries without showing them: where it comes from, when
it does not come from the program itself. -/
def hiddenFields : Event → List String
  | .lineAwaited => ["log.target", "log.module_path", "log.file", "log.line"]
  | _ => []

/-- The names of the fields of an event.  The message is a field as well. -/
def fields (event : Event) : List String :=
  "message" :: event.particulars.map Prod.fst ++ event.hiddenFields

/-- The line of an event in the log. -/
def render (event : Event) : String :=
  event.level.label ++ " " ++ event.target ++ ": " ++ event.message ++
    String.join (event.particulars.map fun (name, value) => " " ++ name ++ "=" ++ value) ++ "\n"

end Event

end Datalog
