import Datalog.Proofs.Grammar.SingleClause
import Datalog.Proofs.Nodes.Clause
import Datalog.Proofs.SingleClause
import Datalog.Proofs.TranslationUnit.Literals

/-!
# Number constants are exact

A text that is a single clause is never malformed.  It is read exactly if each of its
numerals denotes a machine integer, and then the clause holds the integers that are
written.  Otherwise the error is the leftmost numeral that does not fit, wherever the
clause has it, and the table has gained the string constants on the left of it
(`number_constants_exact`).  The tree of the clause keeps its constants in the order in
which they are written, and they are interned in that order.
-/

set_option autoImplicit false

namespace Datalog

open Grammar

/-! ## Machine integers -/

/-- What a numeral denotes is a machine integer, from `-2 ^ 63` to `2 ^ 63 - 1`. -/
def Numeral.Fits (numeral : Numeral) : Prop :=
  -9223372036854775808 ≤ numeral.value ∧ numeral.value ≤ 9223372036854775807

theorem Numeral.inRange_iff (numeral : Numeral) : numeral.inRange = true ↔ numeral.Fits := by
  rw [inRange, Bool.and_eq_true, decide_eq_true_eq, decide_eq_true_eq]
  exact Iff.rfl

/-- A numeral that fits becomes the integer that it denotes. -/
theorem Numeral.toInt_machine {numeral : Numeral} (fits : numeral.Fits) :
    numeral.machine.toInt = numeral.value :=
  Int64.toInt_ofInt_of_le fits.1 (Int.lt_add_one_of_le fits.2)

/-! ## What is entered -/

theorem entered_of_taken {constants : List (Numeral ⊕ String)}
    (taken : rejected? constants = none) :
    entered constants = constants.filterMap Sum.getRight? := by
  have all : constants.all isTaken = true := by rw [← isNone_rejected?, taken]; rfl
  rw [entered_eq, List.takeWhile_eq_self_iff.mpr (List.all_eq_true.mp all)]

/-- Undoing the escapes of string constants leaves the numerals as they are. -/
theorem inl_mem_map_textOf (constants : List (Numeral ⊕ List Char)) (numeral : Numeral) :
    .inl numeral ∈ constants.map (Sum.map id textOf) ↔ .inl numeral ∈ constants := by
  simp only [List.mem_map, Sum.exists, Sum.map_inl, id_eq, Sum.map_inr, Sum.inl.injEq,
    exists_eq_right, reduceCtorEq, and_false, exists_false, or_false]

theorem Grammar.ClauseTree.rejected?_eq_none_iff (tree : ClauseTree) :
    rejected? tree.spelled.constants = none ↔
      ∀ numeral, .inl numeral ∈ tree.constants → numeral.Fits := by
  rw [Datalog.rejected?_eq_none_iff, tree.constants_spelled]
  simp only [inl_mem_map_textOf, Numeral.inRange_iff]

/-! ## The leftmost numeral that does not fit -/

/-- A numeral is the leftmost one of a text that does not fit.  It is written in the text
behind the constants in front of it in the tree. -/
structure Leftmost (code : List Char) (tree : ClauseTree) (front : List (Numeral ⊕ List Char))
    (numeral : Numeral) : Prop where
  fit : ∀ other, .inl other ∈ front → other.Fits
  outside : ¬ numeral.Fits
  first : ∀ other, .inl other ∈ tree.constants → ¬ other.Fits →
    (ParseError.outOfRange numeral).offset code ≤ (ParseError.outOfRange other).offset code
  written : ∃ before after back, code = before ++ (numeral.spelling ++ after) ∧
    (ParseError.outOfRange numeral).offset code = Text.byteLength before ∧
      Bears code front (numeral.spelling ++ after) ∧ Bears after back [] ∧
        tree.constants = front ++ .inl numeral :: back

section SingleClause

variable {code : List Char} {tree : ClauseTree}

/-- The numeral that is rejected is the leftmost one that does not fit. -/
theorem Grammar.DerivesSingle.leftmost (derives : DerivesSingle code tree) {numeral : Numeral}
    (rejected : rejected? tree.spelled.constants = some numeral) :
    ∃ front, Leftmost code tree front numeral ∧
      entered tree.spelled.constants = (front.filterMap Sum.getRight?).map textOf := by
  obtain ⟨front, back, listed, fit, range⟩ := ClauseTree.split_of_rejected? rejected
  have bears := derives.bears
  rw [listed] at bears
  have fits : ∀ other, .inl other ∈ front → other.Fits := fun other member =>
    other.inRange_iff.mp (fit other member)
  refine ⟨front, ⟨fits, ?_, ?_, ?_⟩, ?_⟩
  · rw [← numeral.inRange_iff, range]
    exact Bool.false_ne_true
  · intro other member outside
    rw [listed, List.mem_append, List.mem_cons] at member
    rcases member with ahead | same | later
    · exact absurd (fits other ahead) outside
    · cases same
      exact Nat.le_refl _
    · exact Text.offset_le_offset code (Nat.le_of_lt (bears.remaining_lt later))
  · obtain ⟨start, after, ahead, digits, place, behind⟩ := bears.of_numeral
    obtain ⟨before, split⟩ := ahead.suffix
    rw [digits.spelled] at split place ahead
    refine ⟨before, after, back, split.symm, ?_, ahead, behind, listed⟩
    rw [ParseError.offset, ParseError.remaining, place, ← split, Text.offset_append_length]
  · have taken : rejected? (front.map (Sum.map id textOf)) = none := by
      rw [rejected?_eq_none_iff]
      simpa only [inl_mem_map_textOf] using fit
    rw [tree.constants_spelled, listed, List.map_append, entered_append, taken,
      entered_of_taken taken, filterMap_getRight?_map, List.map_cons]
    simp [entered, range]

namespace Grammar.DerivesSingle

variable (derives : DerivesSingle code tree) (table : SymbolTable)

include derives

/-- What is read is interned. -/
theorem parseClause_eq :
    parseClause code table = ((tree.spelled.intern.runFrom table).1.mapError .outOfRange,
      (tree.spelled.intern.runFrom table).2) := by
  obtain ⟨rest, read⟩ := (read_singleClause_iff_derives code tree.spelled).mpr ⟨tree, derives, rfl⟩
  exact parseClause_of_read read table

/-- A single clause is read if nothing is rejected in it. -/
theorem parseClause_of_taken (taken : rejected? tree.spelled.constants = none) :
    ∃ final : SymbolTable, parseClause code table =
      (.ok (tree.spelled.map Numeral.machine final.symbolOf), final) := by
  rw [derives.parseClause_eq, tree.spelled.interns.answers table taken]
  exact ⟨_, rfl⟩

theorem parseClause_of_rejected {numeral : Numeral}
    (rejected : rejected? tree.spelled.constants = some numeral) :
    parseClause code table =
      (.error (.outOfRange numeral), table.insertAll (entered tree.spelled.constants)) := by
  rw [derives.parseClause_eq, tree.spelled.interns.rejects table numeral rejected]
  rfl

/-- A single clause is read exactly if its numerals fit. -/
theorem accepted_iff : (∃ clause, (parseClause code table).1 = .ok clause) ↔
    ∀ numeral, .inl numeral ∈ tree.constants → numeral.Fits := by
  rw [← tree.rejected?_eq_none_iff]
  cases rejected : rejected? tree.spelled.constants with
  | none =>
      obtain ⟨final, parsed⟩ := derives.parseClause_of_taken table rejected
      rw [parsed]
      exact iff_of_true ⟨_, rfl⟩ rfl
  | some numeral =>
      rw [derives.parseClause_of_rejected table rejected]
      exact iff_of_false (fun ⟨_, accepted⟩ => nomatch accepted) (Option.some_ne_none numeral)

/-- A clause that is read holds the integers that are written. -/
theorem numbers_exact {clause : InternedClause}
    (accepted : (parseClause code table).1 = .ok clause) :
    clause.map Int64.toInt Symbol.text = tree.spelled.map Numeral.value id := by
  have fits := (derives.accepted_iff table).mp ⟨clause, accepted⟩
  obtain ⟨final, parsed⟩ :=
    derives.parseClause_of_taken table (tree.rejected?_eq_none_iff.mpr fits)
  rw [parsed] at accepted
  obtain rfl := Except.ok.inj accepted
  rw [Clause.map_map]
  refine Clause.map_congr _ _ fun numeral member => ?_
  rw [tree.constants_spelled, inl_mem_map_textOf] at member
  exact Numeral.toInt_machine (fits numeral member)

/-- What is not read has a numeral that does not fit, and the leftmost one is the error. -/
theorem error_leftmost {error : ParseError}
    (stopped : (parseClause code table).1 = .error error) :
    ∃ front numeral, error = .outOfRange numeral ∧ Leftmost code tree front numeral ∧
      (parseClause code table).2.texts = table.texts ++
        ((front.filterMap Sum.getRight?).map textOf).eraseDups.filter fun text =>
          text ∉ table.texts := by
  cases rejected : rejected? tree.spelled.constants with
  | none =>
      obtain ⟨final, parsed⟩ := derives.parseClause_of_taken table rejected
      rw [parsed] at stopped
      cases stopped
  | some numeral =>
      obtain ⟨front, leftmost, texts⟩ := derives.leftmost rejected
      rw [derives.parseClause_of_rejected table rejected] at stopped ⊢
      obtain rfl := Except.error.inj stopped
      exact ⟨front, numeral, rfl, leftmost, by rw [table.texts_insertAll, texts]⟩

/-- **From the nodes of a clause, the clause is built that is read.**  The only error that
arises is a numeral that does not fit. -/
theorem built_from_nodes :
    ∃ (nodes : List Node) (rest : List Char) (answer : Except Numeral InternedClause),
      singleClauseNodes.read code = some (nodes, rest) ∧
        (Node.singleClause nodes).runFrom table =
          (answer.mapError .outOfRange, (parseClause code table).2) ∧
        (parseClause code table).1 = answer.mapError .outOfRange := by
  obtain ⟨rest, read⟩ := (read_singleClause_iff_derives code tree.spelled).mpr ⟨tree, derives, rfl⟩
  obtain ⟨nodes, taken, built⟩ := mirrors_singleClause.exists_read read
  rw [parseClause_of_read read]
  exact ⟨nodes, rest, (tree.spelled.intern.runFrom table).1, taken, by rw [built]; rfl, rfl⟩

end Grammar.DerivesSingle

end SingleClause

/-! ## Number constants -/

/-- **Number constants are exact, and the leftmost one that does not fit is the error.**
A text that is a single clause is read exactly if all its numerals fit, and then every number
of the clause is the integer that is written.  Otherwise the error is the leftmost numeral
that does not fit, and the table has gained the string constants on the left of it.  The
text can be taken apart into nodes, and building the clause from them comes to the same, so
an unsuitable node is never found. -/
theorem number_constants_exact {code : List Char} {tree : ClauseTree}
    (derives : DerivesSingle code tree) (table : SymbolTable) :
    ((∃ clause, (parseClause code table).1 = .ok clause) ↔
        ∀ numeral, .inl numeral ∈ tree.constants → numeral.Fits) ∧
      (∀ clause, (parseClause code table).1 = .ok clause →
        clause.map Int64.toInt Symbol.text = tree.spelled.map Numeral.value id) ∧
      (∀ error, (parseClause code table).1 = .error error → ∃ front numeral,
        error = .outOfRange numeral ∧ Leftmost code tree front numeral ∧
          (parseClause code table).2.texts = table.texts ++
            ((front.filterMap Sum.getRight?).map textOf).eraseDups.filter fun text =>
              text ∉ table.texts) ∧
      ∃ (nodes : List Node) (rest : List Char) (answer : Except Numeral InternedClause),
        singleClauseNodes.read code = some (nodes, rest) ∧
          (Node.singleClause nodes).runFrom table =
            (answer.mapError .outOfRange, (parseClause code table).2) ∧
          (parseClause code table).1 = answer.mapError .outOfRange :=
  ⟨derives.accepted_iff table, fun _ => derives.numbers_exact table,
    fun _ => derives.error_leftmost table, derives.built_from_nodes table⟩

/-- Numerals that just fit, with leading zeros and with signs, in an aggregate and around it,
and one that does not fit as a target between string constants. -/
theorem number_constants_exact_nested :
    (∃ clause, (parseClause
        "A(007, -9223372036854775808) :- sum -0 : \x7b B(1) \x7d = 9223372036854775807.".toList
          (.empty 0)).1 = .ok clause ∧
      clause.map Int64.toInt Symbol.text =
        ⟨⟨"A", [.number 7, .number (-9223372036854775808)]⟩,
          [.comparison .equal (.aggregate .sum (some (.number 0)) [.positive "B" [.number 1]])
            (.number 9223372036854775807)]⟩) ∧
      ∃ tree front, (parseClause
          "A(\"s\", max 9223372036854775808 : B(\"t\"), -9223372036854775809).".toList
            (.empty 0)).1 = .error (.outOfRange ⟨"9223372036854775808".toList, 52⟩) ∧
        Leftmost "A(\"s\", max 9223372036854775808 : B(\"t\"), -9223372036854775809).".toList
          tree front ⟨"9223372036854775808".toList, 52⟩ ∧
        ((front.filterMap Sum.getRight?).map textOf).eraseDups = ["s"] := by
  constructor
  · have read : singleClause.read
        "A(007, -9223372036854775808) :- sum -0 : \x7b B(1) \x7d = 9223372036854775807.".toList =
        some (⟨⟨"A", [.number ⟨"007".toList, 70⟩, .number ⟨"-9223372036854775808".toList, 65⟩]⟩,
          [.comparison .equal (.aggregate .sum (some (.number ⟨"-0".toList, 36⟩))
              [.positive "B" [.number ⟨"1".toList, 27⟩]])
            (.number ⟨"9223372036854775807".toList, 20⟩)]⟩, []) := by
      rfl
    obtain ⟨tree, derives, same⟩ := (read_singleClause_iff_derives _ _).mp ⟨_, read⟩
    obtain ⟨accepts, exact, -⟩ := number_constants_exact derives (.empty 0)
    have fits := tree.rejected?_eq_none_iff.mp (by rw [same]; decide +kernel)
    obtain ⟨clause, accepted⟩ := accepts.mpr fits
    refine ⟨clause, accepted, ?_⟩
    rw [exact clause accepted, same]
    rfl
  · have read : singleClause.read
        "A(\"s\", max 9223372036854775808 : B(\"t\"), -9223372036854775809).".toList =
        some (⟨⟨"A", [.string "s", .aggregate .max
          (some (.number ⟨"9223372036854775808".toList, 52⟩)) [.positive "B" [.string "t"]],
            .number ⟨"-9223372036854775809".toList, 22⟩]⟩, []⟩, []) := by
      rfl
    obtain ⟨tree, derives, same⟩ := (read_singleClause_iff_derives _ _).mp ⟨_, read⟩
    obtain ⟨-, -, rejects, -⟩ := number_constants_exact derives (.empty 0)
    rw [parseClause_of_read read] at rejects
    obtain ⟨front, numeral, stopped, leftmost, texts⟩ :=
      rejects (.outOfRange ⟨"9223372036854775808".toList, 52⟩) rfl
    obtain rfl := ParseError.outOfRange.inj stopped
    refine ⟨tree, front, by rw [parseClause_of_read read]; rfl, leftmost, ?_⟩
    have gained : ["s"] = (SymbolTable.empty 0).texts ++ _ := texts
    simpa [SymbolTable.empty] using gained.symm

end Datalog
