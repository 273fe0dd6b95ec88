import Datalog.Proofs.Grammar.Completeness
import Datalog.Proofs.Grammar.Constants
import Datalog.Proofs.Interning

/-!
# Texts that are one clause

A text is one clause if a clause can be derived in it and there is nothing but layout
around the clause.  Exactly these texts are read as a single clause
(`read_singleClause_iff_derives`).  A numeral of the clause is written in the text at the
place that it keeps, and what the clause has in front of it and behind it is written in
front of it and behind it (`Bears.of_numeral`).
-/

set_option autoImplicit false

namespace Datalog.Grammar

open Phrase

variable {code text rest : List Char} {tree : ClauseTree}

/-- The text is a clause with layout around it. -/
def DerivesSingle (code : List Char) (tree : ClauseTree) : Prop :=
  ∃ start stop, Layout code start ∧ DerivesClause start tree stop ∧ Layout stop []

theorem DerivesClause.solid (derives : DerivesClause text tree rest) : Solid text := by
  cases derives with
  | fact first | rule first => exact first.solid

theorem read_endOfInput_iff (text : List Char) (nothing : Unit) (rest : List Char) :
    Phrase.endOfInput.read text = some (nothing, rest) ↔ text = [] ∧ rest = [] := by
  change (if text.isEmpty then some ((), text) else none) = some (nothing, rest) ↔ _
  cases text with
  | nil => simp [eq_comm]
  | cons c text => simp

/-- **The reader of single clauses finds the clause that is there.** -/
theorem read_singleClause_iff_derives (code : List Char) (spelled : SpelledClause) :
    (∃ rest, singleClause.read code = some (spelled, rest)) ↔
      ∃ tree, DerivesSingle code tree ∧ tree.spelled = spelled := by
  have whole (rest : List Char) : singleClause.read code = some (spelled, rest) ↔
      ∃ stop ends, clause.read (skip code) = some (spelled, stop) ∧
        Phrase.endOfInput.read (skip stop) = some (ends, rest) :=
    read_seqLeft_iff clause .endOfInput (skip code) spelled rest
  simp only [whole, read_endOfInput_iff]
  constructor
  · rintro ⟨rest, stop, ends, read, ended, -⟩
    obtain ⟨tree, derives, same⟩ := clause_sound read
    exact ⟨tree, ⟨skip code, stop, layout_skip code, derives, ended ▸ layout_skip stop⟩, same⟩
  · rintro ⟨tree, ⟨start, stop, before, derives, behind⟩, rfl⟩
    have ended : skip stop = [] := behind.skip_eq
    refine ⟨[], stop, (), ?_, ended, rfl⟩
    rw [before.skip_eq_of_solid derives.solid]
    exact clause_complete derives

/-! ## Numerals in the text -/

namespace Bears

theorem suffix {constants : List (Numeral ⊕ List Char)} (bears : Bears text constants rest) :
    rest <:+ text := by
  induction bears with
  | done => exact List.suffix_rfl
  | pass _ ih => exact ih.trans (List.suffix_cons _ _)
  | number digits _ ih => exact ih.trans (digits.spelled ▸ List.suffix_append _ _)
  | @string interior stop _ _ _ _ ih =>
      refine ih.trans ⟨'"' :: (interior ++ ['"']), ?_⟩
      simp

/-- **A numeral is written at the place that it keeps**, behind what is written in front of
it and in front of what is written behind it. -/
theorem of_numeral {front back : List (Numeral ⊕ List Char)} {numeral : Numeral}
    (bears : Bears text (front ++ .inl numeral :: back) rest) :
    ∃ start stop, Bears text front start ∧ NumberText start numeral.spelling stop ∧
      numeral.remaining = start.length ∧ Bears stop back rest := by
  generalize split : front ++ .inl numeral :: back = constants at bears
  induction bears generalizing front with
  | done => simp at split
  | pass _ ih =>
      obtain ⟨start, stop, before, rest⟩ := ih split
      exact ⟨start, stop, .pass before, rest⟩
  | @number text spelling stop rest constants digits behind ih =>
      cases front with
      | nil =>
          obtain ⟨same, rfl⟩ := List.cons.inj split
          obtain rfl := Sum.inl.inj same
          exact ⟨text, stop, .done, digits, rfl, behind⟩
      | cons constant front =>
          obtain ⟨rfl, split'⟩ := List.cons.inj split
          obtain ⟨start, stop, before, rest⟩ := ih split'
          exact ⟨start, stop, .number digits before, rest⟩
  | @string interior stop rest constants isInterior behind ih =>
      cases front with
      | nil => cases split
      | cons constant front =>
          obtain ⟨rfl, split'⟩ := List.cons.inj split
          obtain ⟨start, stop, before, rest⟩ := ih split'
          exact ⟨start, stop, .string isInterior before, rest⟩

/-- The fewer characters remain at a numeral, the later it is written. -/
theorem remaining_lt {front back : List (Numeral ⊕ List Char)} {numeral other : Numeral}
    (bears : Bears text (front ++ .inl numeral :: back) rest) (later : .inl other ∈ back) :
    other.remaining < numeral.remaining := by
  obtain ⟨start, stop, -, digits, place, behind⟩ := bears.of_numeral
  obtain ⟨front', back', rfl⟩ := List.append_of_mem later
  obtain ⟨start', -, between, -, place', -⟩ := behind.of_numeral
  rw [place, place']
  exact Nat.lt_of_le_of_lt between.suffix.length_le digits.length_lt

end Bears

/-- The constants of a single clause are written from left to right in its text. -/
theorem DerivesSingle.bears (derives : DerivesSingle code tree) : Bears code tree.constants [] := by
  obtain ⟨start, stop, before, derives, behind⟩ := derives
  exact (derives.bears.before behind.suffix).behind before.suffix

/-- The numeral that is rejected is a leaf, and all numerals in front of it are in range. -/
theorem ClauseTree.split_of_rejected? {numeral : Numeral}
    (rejected : rejected? tree.spelled.constants = some numeral) :
    ∃ front back, tree.constants = front ++ .inl numeral :: back ∧
      (∀ other, .inl other ∈ front → other.inRange = true) ∧ numeral.inRange = false := by
  obtain ⟨ahead, behind, split, taken, range⟩ := (rejected?_eq_some_iff _ _).mp rejected
  rw [tree.constants_spelled, List.map_eq_append_iff] at split
  obtain ⟨front, others, leaves, rfl, split⟩ := split
  obtain ⟨leaf, back, rfl, same, -⟩ := List.map_eq_cons_iff.mp split
  cases leaf with
  | inr interior => cases same
  | inl numeral' =>
      obtain rfl : numeral' = numeral := Sum.inl.inj same
      refine ⟨front, back, leaves, fun other member => ?_, range⟩
      exact (rejected?_eq_none_iff _).mp taken other (List.mem_map_of_mem member)

end Datalog.Grammar
