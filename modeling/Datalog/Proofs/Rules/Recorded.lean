import Datalog.Proofs.Rules.Run

/-!
# What runs record

A record that has moved on from the start of the text names some rule, whatever has been
cut back, emptied or given up on the way (`Run.remembers`), so a rule that is missed in the
open leaves a record that names some rule (`Run.tried_ne_nil`).  And only some rules are
ever named: the transparent rules are never missed themselves, and reserved words are looked
for only inside closed rules (`Run.lists`).
-/

set_option autoImplicit false

namespace Datalog.Grammar

variable {code text : List Char} {manner : Manner} {expression : Expression} {rule : Rule}
  {answer : Option (List Char)} {record record' begun inside : Record} {limit remaining : Nat}

/-- **What missing a rule does to a record**: nothing, because one rule that is named stands
for it or because the record is further on, or it names the rule behind rules that were
named before. -/
theorem Record.miss_cases (rule : Rule) (remaining : Nat) (begun inside : Record) :
    (miss rule remaining begun inside = inside ∧
        (inside.tried ≠ [] ∨ inside.remaining < remaining)) ∨
      ∃ kept, (∀ other ∈ kept, other ∈ inside.tried) ∧
        miss rule remaining begun inside = ⟨remaining, kept ++ [rule]⟩ := by
  by_cases lone : inside.countAt remaining - begun.countAt remaining = 1
  · refine .inl ⟨if_pos lone, .inl fun empty => ?_⟩
    simp [countAt, empty] at lone
  have entered : miss rule remaining begun inside = _ := if_neg lone
  by_cases here : inside.remaining = remaining
  · exact .inr ⟨_, fun other => List.mem_of_mem_take, entered.trans (if_pos here)⟩
  rw [if_neg here] at entered
  by_cases further : remaining < inside.remaining
  · exact .inr ⟨[], fun other member => (nomatch member), entered.trans (if_pos further)⟩
  · exact .inl ⟨entered.trans (if_neg further), .inr (by omega)⟩

/-! ## Some rule is named -/

/-- The record names some rule, unless it has not moved from the place with the given number
of remaining characters. -/
def Record.Remembers (limit : Nat) (record : Record) : Prop :=
  record.tried = [] → record.remaining = limit

theorem Record.Remembers.miss (remembers : inside.Remembers limit) :
    (Record.miss rule remaining begun inside).Remembers limit := by
  rcases Record.miss_cases rule remaining begun inside with ⟨same, -⟩ | ⟨kept, -, same⟩
  · rwa [same]
  · rw [same]
    intro empty
    simp at empty

/-- **A run that begins with such a record ends with one.** -/
theorem Run.remembers (run : Run code manner expression text record answer record')
    (before : record.Remembers limit) : record'.Remembers limit := by
  induction run with
  | sign | noSign | character | noCharacter | start | noStart | stop | noStop => exact before
  | rule _ ih | noRuleUnrecorded _ _ ih | noFirst _ ih | left _ ih | maybe _ ih | leftOut _ ih
  | nothing _ ih | absent _ ih | present _ ih => exact ih before
  | noRule _ _ ih => exact (ih before).miss
  | both _ _ _ ih ihGap ih' => exact ih' (ihGap (ih before))
  | right _ _ ih ih' | many _ _ ih ih' => exact ih' (ih before)
  | more _ _ _ ihGap ih ih' => exact ih' (ih (ihGap before))
  | last _ _ ihGap ih => exact ih (ihGap before)

/-- **A rule that is missed in the open leaves a record that names a rule.** -/
theorem Run.tried_ne_nil (run : Run code manner (.rule rule) text record none record')
    (shown : rule.transparent = false) (opened : manner ≠ .closed)
    (before : record.Remembers limit) (within : text.length ≤ limit) : record'.tried ≠ [] := by
  cases run with
  | @noRule _ _ _ _ inside contents =>
      have remembers := contents.remembers before
      rcases Record.miss_cases rule text.length record inside with
        ⟨same, named | further⟩ | ⟨kept, -, same⟩
      · rwa [same]
      · rw [same]
        intro empty
        have unmoved := remembers empty
        omega
      · rw [same]
        simp
  | noRuleUnrecorded _ unrecorded => simp [shown, opened] at unrecorded

/-! ## Only some rules are named -/

/-- Whether a rule may be named by a record. -/
def Rule.listable (rule : Rule) : Bool := !rule.transparent && rule != .reservedWord

/-- Whether reserved words are not looked for in an expression. -/
def Expression.unreserved : Expression → Bool
  | .rule named => named != .reservedWord
  | .both first second | .either first second => first.unreserved && second.unreserved
  | .maybe contents | .many contents | .more contents | .absent contents => contents.unreserved
  | .sign _ | .character _ | .start | .stop => true

/-- Reserved words are looked for in closed rules only. -/
theorem Rule.unreserved_body (rule : Rule) (opened : rule.manner.inside manner ≠ .closed) :
    rule.body.unreserved = true := by
  cases rule with
  | production named => cases named <;> first | rfl | exact absurd rfl opened
  | _ => rfl

/-- All the rules that the record names may be named. -/
def Record.Lists (record : Record) : Prop := ∀ rule ∈ record.tried, rule.listable = true

theorem Record.Lists.miss (listable : rule.listable = true) (lists : inside.Lists) :
    (Record.miss rule remaining begun inside).Lists := by
  rcases Record.miss_cases rule remaining begun inside with ⟨same, -⟩ | ⟨kept, known, same⟩
  · rwa [same]
  · rw [same]
    intro other member
    rcases List.mem_append.mp member with before | own
    · exact lists other (known other before)
    · rw [List.mem_singleton.mp own]
      exact listable

/-- **Only the rules that may be named are named.** -/
theorem Run.lists (run : Run code manner expression text record answer record')
    (unreserved : manner ≠ .closed → expression.unreserved = true) (before : record.Lists) :
    record'.Lists := by
  induction run with
  | sign | noSign | character | noCharacter | start | noStart | stop | noStop => exact before
  | @rule _ named _ _ _ _ _ ih | @noRuleUnrecorded _ named _ _ _ _ _ ih =>
      exact ih named.unreserved_body before
  | @noRule _ named _ _ _ _ recorded ih =>
      refine (ih named.unreserved_body before).miss ?_
      exact Bool.and_eq_true_iff.mpr ⟨by rw [recorded.1]; rfl, unreserved recorded.2⟩
  | both _ _ _ ih ihGap ih' =>
      have parts (opened) := Bool.and_eq_true_iff.mp (unreserved opened)
      have taken := ih (fun opened => (parts opened).1) before
      exact ih' (fun opened => (parts opened).2) (ihGap (absurd rfl) taken)
  | noFirst _ ih | left _ ih =>
      exact ih (fun opened => (Bool.and_eq_true_iff.mp (unreserved opened)).1) before
  | right _ _ ih ih' =>
      have parts (opened) := Bool.and_eq_true_iff.mp (unreserved opened)
      exact ih' (fun opened => (parts opened).2) (ih (fun opened => (parts opened).1) before)
  | maybe _ ih | leftOut _ ih | nothing _ ih | absent _ ih | present _ ih =>
      exact ih unreserved before
  | many _ _ ih ih' => exact ih' unreserved (ih unreserved before)
  | more _ _ _ ihGap ih ih' =>
      exact ih' unreserved (ih unreserved (ihGap (absurd rfl) before))
  | last _ _ ihGap ih => exact ih unreserved (ihGap (absurd rfl) before)

end Datalog.Grammar
