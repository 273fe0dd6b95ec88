import Datalog.Proofs.Grammar.SingleClause
import Datalog.Proofs.Viability.Clause

/-!
# Faults end viable prefixes

A text that is no clause has its fault at a place up to which there is nothing wrong with
it: everything in front of the fault can be completed to a clause
(`fault_ends_viable_prefix`).  A production is missed only where it is expected, whatever
has been tried and given up on the way, and what is expected can be made up there.  What
is made up has no digits, so a completed text may be rejected for a number only if the
number stands in front of the fault.
-/

set_option autoImplicit false

namespace Datalog

open Grammar Phrase Form

variable {code front behind : List Char}

namespace Grammar

/-- A text that is a clause with layout around it. -/
def IsClause (code : List Char) : Prop := ∃ tree, DerivesSingle code tree

/-- Behind a clause nothing is expected, and that is where the text has to end. -/
theorem viable_endOfInput : Viable Phrase.endOfInput Eq := by
  apply Viable.terminal
  · exact fun rest _ undigited => ⟨rest, undigited, rfl⟩
  · intro text rest nothing read
    obtain ⟨rfl, rfl⟩ := (read_endOfInput_iff text nothing rest).mp read
    exact ⟨[], rfl, fun _ _ => rfl⟩

/-- In front of a text, and of the layout at its start, a clause is expected. -/
theorem expects_clause (code : List Char) : ∃ passed, code = passed ++ skip code ∧
    Expects IsClause passed (skip code) (Form.both (ofTrees DerivesClause) Eq) := by
  obtain ⟨passed, spelled, blank⟩ := (layout_skip code).firm
  refine ⟨passed, spelled, [], by simp [StartsLine], by simp [Undigited], ?_⟩
  rintro other start replaces layout ⟨stop, last, ⟨tree, derives⟩, further, rfl⟩
  exact ⟨tree, start, stop, (blank replaces).trans layout, derives, further⟩

theorem isClause_fact : IsClause "a().".toList := by
  refine ⟨⟨.applied "a" [], []⟩, _, [], .nothing _, .fact ?_ (.nothing _), .nothing []⟩
  exact .applied ⟨rfl, by decide, rfl⟩ (.nothing _) (.empty (.nothing _))

/-- **What stands in front of a fault can be completed to a clause.** -/
theorem completes_before_fault (code : List Char) :
    Completes IsClause (Text.before code (singleClause.fault code).remaining) := by
  obtain ⟨passed, spelled, expects⟩ := expects_clause code
  have start : (Trail.start code).Viable IsClause code := by
    refine ⟨"a().".toList, by simp [Undigited], ?_⟩
    have nothing : Text.before code (Trail.start code).remaining = [] := by
      simp [Text.before, Trail.start]
    rw [nothing]
    exact isClause_fact
  exact (viable_clause.seqLeft viable_endOfInput).attempt spelled expects start

end Grammar

/-! ## Numerals in completed texts -/

/-- A numeral ends with a digit. -/
theorem Grammar.NumberText.ends_digit {text spelling rest : List Char}
    (number : NumberText text spelling rest) :
    ∃ letters c, spelling = letters ++ [c] ∧ c.isDigit = true := by
  obtain ⟨digits, some, all, form⟩ := number.digits
  have last := List.dropLast_append_getLast some
  have digit := all _ (List.getLast_mem some)
  rcases form with rfl | rfl
  · exact ⟨_, _, last.symm, digit⟩
  · exact ⟨'-' :: digits.dropLast, _, by rw [List.cons_append, last], digit⟩

/-- A digit does not stand in what has no digits. -/
theorem exists_eq_append_of_digit {letters tail : List Char} {c : Char} (digit : c.isDigit = true)
    (undigited : Undigited behind) (split : front ++ behind = letters ++ c :: tail) :
    ∃ after, front = letters ++ c :: after ∧ tail = after ++ behind := by
  induction front generalizing letters with
  | nil =>
      have member : c ∈ behind := by simp [show behind = letters ++ c :: tail from split]
      rw [undigited c member] at digit
      cases digit
  | cons d front ih =>
      cases letters with
      | nil =>
          obtain ⟨rfl, rfl⟩ := List.cons.inj split
          exact ⟨front, rfl, rfl⟩
      | cons e letters =>
          obtain ⟨rfl, split'⟩ := List.cons.inj split
          obtain ⟨after, rfl, rfl⟩ := ih split'
          exact ⟨after, rfl, rfl⟩

/-- **A clause that is completed without digits is rejected only for what it was completed
from**: a numeral in front of what has been added. -/
theorem parseClause_of_completed (undigited : Undigited behind)
    (isClause : IsClause (front ++ behind)) (table : SymbolTable) :
    (∃ clause, (parseClause (front ++ behind) table).1 = .ok clause) ∨
      ∃ numeral before after,
        (parseClause (front ++ behind) table).1 = .error (.outOfRange numeral) ∧
        numeral.inRange = false ∧ front = before ++ numeral.spelling ++ after ∧
        ParseError.offset (front ++ behind) (.outOfRange numeral) = Text.byteLength before := by
  obtain ⟨tree, derives⟩ := isClause
  obtain ⟨rest, read⟩ := (read_singleClause_iff_derives _ _).mpr ⟨tree, derives, rfl⟩
  rw [parseClause_of_read read]
  cases rejected : rejected? tree.spelled.constants with
  | none =>
      rw [tree.spelled.interns.answers table rejected]
      exact .inl ⟨_, rfl⟩
  | some numeral =>
      rw [tree.spelled.interns.rejects table numeral rejected]
      obtain ⟨ahead, back, leaves, -, range⟩ := tree.split_of_rejected? rejected
      have bears := derives.bears
      rw [leaves] at bears
      obtain ⟨start, stop, written, number, place, -⟩ := bears.of_numeral
      obtain ⟨before, spelled⟩ := written.suffix
      obtain ⟨letters, c, spelling, digit⟩ := number.ends_digit
      have split : front ++ behind = (before ++ letters) ++ c :: stop := by
        rw [← spelled, number.spelled, spelling]
        simp
      obtain ⟨after, same, -⟩ := exists_eq_append_of_digit digit undigited split
      refine .inr ⟨numeral, before, after, rfl, range, by rw [same, spelling]; simp, ?_⟩
      rw [ParseError.offset, ParseError.remaining, place, ← spelled, Text.offset_append_length]

/-- **A fault ends a viable prefix.** -/
theorem fault_ends_viable_prefix {table : SymbolTable} {fault : Fault}
    (refused : (parseClause code table).1 = .error (.malformed fault)) :
    ∃ front rest behind, code = front ++ rest ∧
      ParseError.offset code (.malformed fault) = Text.byteLength front ∧
      ParseError.offset code (.malformed fault) ≤ Text.byteLength code ∧
      ∀ table', (∃ clause, (parseClause (front ++ behind) table').1 = .ok clause) ∨
        ∃ numeral before after,
          (parseClause (front ++ behind) table').1 = .error (.outOfRange numeral) ∧
          numeral.inRange = false ∧ front = before ++ numeral.spelling ++ after ∧
          ParseError.offset (front ++ behind) (.outOfRange numeral) = Text.byteLength before := by
  obtain ⟨behind, undigited, isClause⟩ := completes_before_fault code
  have same : fault = singleClause.fault code := by
    cases read : singleClause.read code with
    | none =>
        rw [parseClause_of_refused read] at refused
        exact (ParseError.malformed.inj (Except.error.inj refused)).symm
    | some found =>
        rw [parseClause_of_read read] at refused
        generalize (found.1.intern.runFrom table).1 = answer at refused
        cases answer <;> cases refused
  rw [← same] at isClause
  have split := List.take_append_drop (code.length - fault.remaining) code
  refine ⟨Text.before code fault.remaining, _, behind, split.symm, rfl, ?_,
    parseClause_of_completed undigited isClause⟩
  conv_rhs => rw [← split, Text.byteLength_append]
  exact Nat.le_add_right _ _

/-- An argument is missing in an aggregate that is not closed, behind a number that is too
large. -/
theorem fault_ends_viable_prefix_unclosed :
    ∃ front rest behind,
      "A(-9223372036854775809, min x : \x7bB(y), 1 < ! ).".toList = front ++ rest ∧
      43 = Text.byteLength front ∧
      ∀ table', (∃ clause, (parseClause (front ++ behind) table').1 = .ok clause) ∨
        ∃ numeral before after,
          (parseClause (front ++ behind) table').1 = .error (.outOfRange numeral) ∧
          numeral.inRange = false ∧ front = before ++ numeral.spelling ++ after ∧
          ParseError.offset (front ++ behind) (.outOfRange numeral) = Text.byteLength before := by
  have refused :
      singleClause.read "A(-9223372036854775809, min x : \x7bB(y), 1 < ! ).".toList = none :=
    Option.isNone_iff_eq_none.mp (by decide +kernel)
  have fault : singleClause.fault "A(-9223372036854775809, min x : \x7bB(y), 1 < ! ).".toList =
      ⟨[.argument], 4⟩ := by
    decide +kernel
  have malformed := parseClause_of_refused refused (.empty 0)
  rw [fault] at malformed
  obtain ⟨front, rest, behind, split, offset, -, answers⟩ :=
    fault_ends_viable_prefix (congrArg Prod.fst malformed)
  exact ⟨front, rest, behind, split, offset, answers⟩

end Datalog
