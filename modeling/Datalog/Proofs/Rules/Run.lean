import Datalog.Grammar.Trail
import Datalog.Proofs.Rules.Written
import Mathlib.Data.List.Basic

/-!
# Runs of the grammar

What happens when a text is tried by a rule, step by step: which element is tried at which
place, what is left of the text, and what the record of missed rules is after each step.
There are no bounds in this, neither on the levels of nesting nor on the numbers of
repetitions; a run is a finite tree of steps.

A run is determined by where and with which record it begins (`Run.unique`).  Inside a
closed rule nothing is recorded (`Run.record_eq_of_closed`).
-/

set_option autoImplicit false

namespace Datalog.Grammar

/-! ## Records -/

/-- The furthest place at which a rule has been missed, named by the number of characters
that remain there, and the rules that have been tried there in vain. -/
structure Record where
  remaining : Nat
  tried : List Rule
deriving DecidableEq, Repr

namespace Record

/-- The record before anything has been tried. -/
def start (code : List Char) : Record := ⟨code.length, []⟩

/-- How many rules have been tried in vain at a place, as far as the record knows. -/
def countAt (record : Record) (remaining : Nat) : Nat :=
  if record.remaining = remaining then record.tried.length else 0

/-- The record after a rule has been missed that began at the given place, with the first
record, and that has led to the second one.  If one rule was missed inside it there, this
one stands for it.  Otherwise it takes the place of what was missed inside it there, unless
something has been missed further on. -/
def miss (rule : Rule) (remaining : Nat) (begun inside : Record) : Record :=
  let mark := begun.countAt remaining
  if inside.countAt remaining - mark = 1 then inside
  else if inside.remaining = remaining then ⟨remaining, inside.tried.take mark ++ [rule]⟩
  else if remaining < inside.remaining then ⟨remaining, [rule]⟩
  else inside

end Record

/-! ## Runs -/

/-- Trying an expression at a place of the text, with a record, comes to an answer and
leads to another record.  The answer is what is left of the text, if the expression is not
missed. -/
inductive Run (code : List Char) :
    Manner → Expression → List Char → Record → Option (List Char) → Record → Prop where
  | sign {manner : Manner} {spelling : String} {text rest : List Char} {record : Record}
      (spelled : text = spelling.toList ++ rest) :
      Run code manner (.sign spelling) text record (some rest) record
  | noSign {manner : Manner} {spelling : String} {text : List Char} {record : Record}
      (other : ∀ rest, text ≠ spelling.toList ++ rest) :
      Run code manner (.sign spelling) text record none record
  | character {manner : Manner} {kind : Char → Bool} {c : Char} {rest : List Char}
      {record : Record} (holds : kind c = true) :
      Run code manner (.character kind) (c :: rest) record (some rest) record
  | noCharacter {manner : Manner} {kind : Char → Bool} {text : List Char} {record : Record}
      (other : ∀ c ∈ text.head?, kind c = false) :
      Run code manner (.character kind) text record none record
  | start {manner : Manner} {text : List Char} {record : Record} (begins : text = code) :
      Run code manner .start text record (some text) record
  | noStart {manner : Manner} {text : List Char} {record : Record} (inside : text ≠ code) :
      Run code manner .start text record none record
  | stop {manner : Manner} {text : List Char} {record : Record} (ends : text = []) :
      Run code manner .stop text record (some text) record
  | noStop {manner : Manner} {text : List Char} {record : Record} (goesOn : text ≠ []) :
      Run code manner .stop text record none record
  /-- A rule is tried by its body. -/
  | rule {manner : Manner} {rule : Rule} {text rest : List Char} {record inside : Record}
      (contents : Run code (rule.manner.inside manner) rule.body text record (some rest) inside) :
      Run code manner (.rule rule) text record (some rest) inside
  /-- A rule that is missed is recorded, unless it is transparent or inside a closed one. -/
  | noRule {manner : Manner} {rule : Rule} {text : List Char} {record inside : Record}
      (contents : Run code (rule.manner.inside manner) rule.body text record none inside)
      (recorded : rule.transparent = false ∧ manner ≠ .closed) :
      Run code manner (.rule rule) text record none
        (record.miss rule text.length inside)
  | noRuleUnrecorded {manner : Manner} {rule : Rule} {text : List Char}
      {record inside : Record}
      (contents : Run code (rule.manner.inside manner) rule.body text record none inside)
      (unrecorded : rule.transparent = true ∨ manner = .closed) :
      Run code manner (.rule rule) text record none inside
  /-- Between two elements there may be a gap. -/
  | both {manner : Manner} {first second : Expression} {text stop start : List Char}
      {answer : Option (List Char)} {record inside between after : Record}
      (taken : Run code manner first text record (some stop) inside)
      (gap : Run code .closed manner.gap stop inside (some start) between)
      (further : Run code manner second start between answer after) :
      Run code manner (.both first second) text record answer after
  | noFirst {manner : Manner} {first second : Expression} {text : List Char}
      {record inside : Record} (missed : Run code manner first text record none inside) :
      Run code manner (.both first second) text record none inside
  | left {manner : Manner} {first second : Expression} {text rest : List Char}
      {record inside : Record} (taken : Run code manner first text record (some rest) inside) :
      Run code manner (.either first second) text record (some rest) inside
  | right {manner : Manner} {first second : Expression} {text : List Char}
      {answer : Option (List Char)} {record inside after : Record}
      (missed : Run code manner first text record none inside)
      (further : Run code manner second text inside answer after) :
      Run code manner (.either first second) text record answer after
  | maybe {manner : Manner} {contents : Expression} {text rest : List Char}
      {record inside : Record} (taken : Run code manner contents text record (some rest) inside) :
      Run code manner (.maybe contents) text record (some rest) inside
  | leftOut {manner : Manner} {contents : Expression} {text : List Char}
      {record inside : Record} (missed : Run code manner contents text record none inside) :
      Run code manner (.maybe contents) text record (some text) inside
  | many {manner : Manner} {contents : Expression} {text stop : List Char}
      {answer : Option (List Char)} {record inside after : Record}
      (taken : Run code manner contents text record (some stop) inside)
      (others : Run code manner (.more contents) stop inside answer after) :
      Run code manner (.many contents) text record answer after
  | nothing {manner : Manner} {contents : Expression} {text : List Char}
      {record inside : Record} (missed : Run code manner contents text record none inside) :
      Run code manner (.many contents) text record (some text) inside
  /-- In front of each further element there may be a gap, which is given back with it. -/
  | more {manner : Manner} {contents : Expression} {text start stop : List Char}
      {answer : Option (List Char)} {record between inside after : Record}
      (gap : Run code .closed manner.gap text record (some start) between)
      (taken : Run code manner contents start between (some stop) inside)
      (others : Run code manner (.more contents) stop inside answer after) :
      Run code manner (.more contents) text record answer after
  | last {manner : Manner} {contents : Expression} {text start : List Char}
      {record between inside : Record}
      (gap : Run code .closed manner.gap text record (some start) between)
      (missed : Run code manner contents start between none inside) :
      Run code manner (.more contents) text record (some text) inside
  | absent {manner : Manner} {contents : Expression} {text : List Char}
      {record inside : Record} (missed : Run code manner contents text record none inside) :
      Run code manner (.absent contents) text record (some text) inside
  | present {manner : Manner} {contents : Expression} {text rest : List Char}
      {record inside : Record} (taken : Run code manner contents text record (some rest) inside) :
      Run code manner (.absent contents) text record none inside

namespace Run

variable {code text rest : List Char} {manner : Manner} {expression : Expression}
  {answer answer' : Option (List Char)} {record record' record'' : Record}

/-- **A run is determined by where it begins.** -/
theorem unique (run : Run code manner expression text record answer record')
    (run' : Run code manner expression text record answer' record'') :
    answer = answer' ∧ record' = record'' := by
  induction run generalizing answer' record'' with
  | sign spelled =>
      cases run' with
      | sign spelled' =>
          obtain rfl := List.append_cancel_left (spelled.symm.trans spelled')
          exact ⟨rfl, rfl⟩
      | noSign other => exact absurd spelled (other _)
  | noSign other =>
      cases run' with
      | sign spelled => exact absurd spelled (other _)
      | noSign => exact ⟨rfl, rfl⟩
  | character holds =>
      cases run' with
      | character => exact ⟨rfl, rfl⟩
      | noCharacter other => simp [holds] at other
  | noCharacter other =>
      cases run' with
      | character holds => simp [holds] at other
      | noCharacter => exact ⟨rfl, rfl⟩
  | start begins =>
      cases run' with
      | start => exact ⟨rfl, rfl⟩
      | noStart inside => exact absurd begins inside
  | noStart inside =>
      cases run' with
      | start begins => exact absurd begins inside
      | noStart => exact ⟨rfl, rfl⟩
  | stop ends =>
      cases run' with
      | stop => exact ⟨rfl, rfl⟩
      | noStop goesOn => exact absurd ends goesOn
  | noStop goesOn =>
      cases run' with
      | stop ends => exact absurd ends goesOn
      | noStop => exact ⟨rfl, rfl⟩
  | rule _ ih =>
      cases run' with
      | rule contents => exact ih contents
      | noRule contents => cases (ih contents).1
      | noRuleUnrecorded contents => cases (ih contents).1
  | noRule _ recorded ih =>
      cases run' with
      | rule contents => cases (ih contents).1
      | noRule contents =>
          obtain ⟨-, rfl⟩ := ih contents
          exact ⟨rfl, rfl⟩
      | noRuleUnrecorded _ unrecorded => simp [recorded] at unrecorded
  | noRuleUnrecorded _ unrecorded ih =>
      cases run' with
      | rule contents => cases (ih contents).1
      | noRule _ recorded => simp [recorded] at unrecorded
      | noRuleUnrecorded contents => exact ih contents
  | both _ _ _ ih ihGap ih' =>
      cases run' with
      | both taken gap further =>
          obtain ⟨same, rfl⟩ := ih taken
          cases same
          obtain ⟨same, rfl⟩ := ihGap gap
          cases same
          exact ih' further
      | noFirst missed => cases (ih missed).1
  | noFirst _ ih =>
      cases run' with
      | both taken => cases (ih taken).1
      | noFirst missed => exact ih missed
  | left _ ih =>
      cases run' with
      | left taken => exact ih taken
      | right missed => cases (ih missed).1
  | right _ _ ih ih' =>
      cases run' with
      | left taken => cases (ih taken).1
      | right missed further =>
          obtain ⟨-, rfl⟩ := ih missed
          exact ih' further
  | maybe _ ih =>
      cases run' with
      | maybe taken => exact ih taken
      | leftOut missed => cases (ih missed).1
  | leftOut _ ih =>
      cases run' with
      | maybe taken => cases (ih taken).1
      | leftOut missed => exact ⟨rfl, (ih missed).2⟩
  | many _ _ ih ih' =>
      cases run' with
      | many taken others =>
          obtain ⟨same, rfl⟩ := ih taken
          cases same
          exact ih' others
      | nothing missed => cases (ih missed).1
  | nothing _ ih =>
      cases run' with
      | many taken => cases (ih taken).1
      | nothing missed => exact ⟨rfl, (ih missed).2⟩
  | more _ _ _ ihGap ih ih' =>
      cases run' with
      | more gap taken others =>
          obtain ⟨same, rfl⟩ := ihGap gap
          cases same
          obtain ⟨same, rfl⟩ := ih taken
          cases same
          exact ih' others
      | last gap missed =>
          obtain ⟨same, rfl⟩ := ihGap gap
          cases same
          cases (ih missed).1
  | last _ _ ihGap ih =>
      cases run' with
      | more gap taken =>
          obtain ⟨same, rfl⟩ := ihGap gap
          cases same
          cases (ih taken).1
      | last gap missed =>
          obtain ⟨same, rfl⟩ := ihGap gap
          cases same
          exact ⟨rfl, (ih missed).2⟩
  | absent _ ih =>
      cases run' with
      | absent missed => exact ⟨rfl, (ih missed).2⟩
      | present taken => cases (ih taken).1
  | present _ ih =>
      cases run' with
      | absent missed => cases (ih missed).1
      | present taken => exact ⟨rfl, (ih taken).2⟩

/-- It makes no difference how the elements of a sequence are grouped. -/
theorem regroup {first second third : Expression}
    (run : Run code manner ((first >> second) >> third) text record answer record') :
    Run code manner (first >> second >> third) text record answer record' := by
  cases run with
  | both taken gap further =>
      cases taken with
      | both taken gap' taken' => exact .both taken gap' (.both taken' gap further)
  | noFirst missed =>
      cases missed with
      | both taken gap missed => exact .both taken gap (.noFirst missed)
      | noFirst missed => exact .noFirst missed

/-- Where there is no gap, the first element of a repetition is like the others. -/
theorem many_of_more {contents : Expression}
    (run : Run code manner (.more contents) text record answer record')
    (bare : Run code .closed manner.gap text record (some text) record) :
    Run code manner (.many contents) text record answer record' := by
  cases run with
  | more gap taken others =>
      obtain ⟨same, rfl⟩ := gap.unique bare
      cases same
      exact .many taken others
  | last gap missed =>
      obtain ⟨same, rfl⟩ := gap.unique bare
      cases same
      exact .nothing missed

/-- A transparent rule is tried and missed as its body is. -/
theorem of_transparent {rule : Rule} (transparent : rule.transparent = true)
    (contents : Run code (rule.manner.inside manner) rule.body text record answer record') :
    Run code manner (.rule rule) text record answer record' := by
  cases answer with
  | some rest => exact .rule contents
  | none => exact .noRuleUnrecorded contents (.inl transparent)

/-- A run leaves an end of the text at which it began. -/
theorem suffix (run : Run code manner expression text record (some rest) record') :
    rest <:+ text := by
  generalize found : some rest = answer at run
  induction run generalizing rest with
  | sign spelled =>
      cases found
      exact spelled ▸ List.suffix_append _ _
  | character => cases found; exact List.suffix_cons _ _
  | start | stop => cases found; exact List.suffix_rfl
  | noSign | noCharacter | noStart | noStop | noRule | noRuleUnrecorded | noFirst | present =>
      cases found
  | rule _ ih | left _ ih | maybe _ ih => exact ih found
  | right _ _ _ ih => exact ih found
  | leftOut | nothing | last | absent => cases found; exact List.suffix_rfl
  | both _ _ _ ih ihGap ih' => exact ((ih' found).trans (ihGap rfl)).trans (ih rfl)
  | many _ _ ih ih' => exact (ih' found).trans (ih rfl)
  | more _ _ _ ihGap ih ih' => exact ((ih' found).trans (ih rfl)).trans (ihGap rfl)

/-- **Inside a closed rule nothing is recorded.** -/
theorem record_eq_of_closed (run : Run code .closed expression text record answer record') :
    record' = record := by
  generalize same : Manner.closed = manner at run
  induction run with
  | sign | noSign | character | noCharacter | start | noStart | stop | noStop => rfl
  | @rule _ named _ _ _ _ _ ih =>
      subst same
      exact ih (by cases named.manner <;> rfl)
  | noRule _ recorded => exact absurd same.symm recorded.2
  | @noRuleUnrecorded _ named _ _ _ _ _ ih =>
      subst same
      exact ih (by cases named.manner <;> rfl)
  | both _ _ _ ih ihGap ih' => exact (ih' same).trans ((ihGap rfl).trans (ih same))
  | noFirst _ ih | left _ ih | maybe _ ih | leftOut _ ih | nothing _ ih | absent _ ih
  | present _ ih => exact ih same
  | right _ _ ih ih' | many _ _ ih ih' => exact (ih' same).trans (ih same)
  | more _ _ _ ihGap ih ih' => exact (ih' same).trans ((ih same).trans (ihGap rfl))
  | last _ _ ihGap ih => exact (ih same).trans (ihGap rfl)

end Run

end Datalog.Grammar
