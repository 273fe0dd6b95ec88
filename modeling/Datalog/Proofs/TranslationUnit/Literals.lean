import Datalog.Proofs.Grammar.Constants
import Datalog.Proofs.Segment.Names
import Datalog.Proofs.TranslationUnit.Symbols
import Datalog.Proofs.Workspace
import Mathlib.Data.List.Induction

/-!
# The string constants of a text in its table

The statements of a text are derived one behind the other, and so are their string
constants, from left to right (`Segment.exists_matches`).  Reading the text enters the
texts of these constants into the table, in that order and as far as no numeral out of
range cuts a clause short (`TranslationUnit.ofText_symbols`).  What a table gains by
entering texts are those that it has not known, each where it stands first
(`SymbolTable.texts_insertAll`).
-/

set_option autoImplicit false

namespace Datalog

open Grammar

/-! ## Entering texts in a row -/

/-- **A table gains the texts that are new to it, in the order of first occurrence.** -/
theorem SymbolTable.texts_insertAll (table : SymbolTable) (texts : List String) :
    (table.insertAll texts).texts =
      table.texts ++ texts.eraseDups.filter fun text => text ∉ table.texts := by
  induction texts using List.reverseRecOn with
  | nil => exact (List.append_nil _).symm
  | append_singleton texts text ih =>
      have known : text ∈ (table.insertAll texts).texts ↔
          text ∈ texts ∨ text ∈ table.texts := by
        rw [ih, List.mem_append, List.mem_filter, List.mem_eraseDups, decide_eq_true_eq]
        tauto
      rw [insertAll_append, insertAll, List.foldl_cons, List.foldl_nil, texts_insert,
        if_congr known rfl rfl, List.eraseDups_append, List.removeAll, ih]
      have single : [text].eraseDups = [text] := rfl
      by_cases earlier : text ∈ texts
      · rw [if_pos (.inl earlier), List.filter_cons_of_neg (by simpa using earlier)]
        simp
      · rw [List.filter_cons_of_pos (by simpa using earlier), List.filter_nil, single]
        by_cases old : text ∈ table.texts
        · simp [old]
        · simp [old, earlier]

/-! ## What a statement enters -/

/-- The strings among constants that are replaced are replaced. -/
theorem filterMap_getRight?_map {ν ν' σ σ' : Type} (number : ν → ν') (string : σ → σ')
    (constants : List (ν ⊕ σ)) :
    (constants.map (Sum.map number string)).filterMap Sum.getRight? =
      (constants.filterMap Sum.getRight?).map string := by
  rw [List.filterMap_map, List.map_filterMap]
  exact List.filterMap_congr fun constant _ => Sum.getRight?_map number string constant

/-- Whether interning goes on behind a constant: it does behind every text, and behind a
numeral that is in range. -/
def isTaken {σ : Type} : Numeral ⊕ σ → Bool
  | .inl numeral => numeral.inRange
  | .inr _ => true

/-- The texts that are entered are those in front of the first numeral out of range. -/
theorem entered_eq (constants : List (Numeral ⊕ String)) :
    entered constants = (constants.takeWhile isTaken).filterMap Sum.getRight? := by
  induction constants with
  | nil => rfl
  | cons constant rest ih =>
      cases constant with
      | inr text => exact congrArg (text :: ·) ih
      | inl numeral =>
          rw [entered, List.takeWhile_cons, isTaken]
          split
          · exact ih
          · rfl

theorem isNone_rejected? (constants : List (Numeral ⊕ String)) :
    (rejected? constants).isNone = constants.all isTaken := by
  induction constants with
  | nil => rfl
  | cons constant rest ih =>
      cases constant with
      | inr text => exact ih
      | inl numeral =>
          rw [rejected?, List.all_cons, isTaken, ← ih]
          cases numeral.inRange <;> rfl

/-- What the string constants of a clause stand for, from left to right. -/
def Grammar.ClauseTree.texts (tree : ClauseTree) : List String :=
  (tree.constants.filterMap Sum.getRight?).map textOf

namespace Grammar.StatementTree

/-- The string constants of a statement as they are written, from left to right up to the
first numeral that is out of range. -/
def strings (tree : StatementTree) : List (List Char) :=
  (tree.constants.takeWhile isTaken).filterMap Sum.getRight?

/-- The clause that a statement is, unless a numeral in it is out of range. -/
def clause? : StatementTree → Option ClauseTree
  | .declaration _ => none
  | .clause tree => if tree.constants.all isTaken then some tree else none

theorem isTaken_map : (isTaken ∘ Sum.map id textOf) = isTaken := by
  funext constant
  cases constant <;> rfl

/-- **A statement enters the texts of its strings.** -/
theorem texts_spelled (tree : StatementTree) : tree.spelled.texts = tree.strings.map textOf := by
  cases tree with
  | declaration tree => rfl
  | clause tree =>
      change entered tree.spelled.constants = _
      rw [entered_eq, tree.constants_spelled, List.takeWhile_map, isTaken_map,
        filterMap_getRight?_map]
      rfl

/-- The clauses that a statement comes to hold its strings. -/
theorem strings_contents (tree : StatementTree) :
    tree.spelled.contents.map (fun clause => clause.constants.filterMap Sum.getRight?) =
      tree.clause?.toList.map ClauseTree.texts := by
  cases tree with
  | declaration tree => rfl
  | clause tree =>
      have range : tree.spelled.inRange = tree.constants.all isTaken := by
        rw [Clause.inRange, isNone_rejected?, tree.constants_spelled, List.all_map, isTaken_map]
      rw [StatementTree.spelled, Statement.contents, range, clause?]
      split
      · rw [List.map_singleton, Clause.denoted, Clause.constants_map, filterMap_getRight?_map,
          tree.constants_spelled, filterMap_getRight?_map, List.map_id]
        rfl
      · rfl

end Grammar.StatementTree

/-! ## The statements of a text and their trees -/

/-- The trees stand for the statements of a text.  Each of them has been derived inside
the text, in which their constants are written one behind the other. -/
structure Segment.Matches (code : List Char) (trees : List StatementTree) : Prop where
  spelled : trees.map StatementTree.spelled = Segment.statements code
  derived : ∀ tree ∈ trees, ∃ start rest, start <:+ code ∧ DerivesStatement start tree rest
  bears : Bears code (trees.flatMap StatementTree.constants) []

/-- The constants of a statement that is read are written in front of what is left. -/
theorem Grammar.DerivesStatement.bears_of_read {text rest stop : List Char} {stated : Statement}
    {tree : StatementTree} (derives : DerivesStatement text tree stop)
    (layout : Layout stop rest) (read : statement.read text = some (stated, rest)) :
    Bears text tree.constants rest := by
  cases derives with
  | declaration contents => exact .of_suffix (trims_statement read)
  | clause contents => exact contents.bears.before layout.suffix

/-- **The statements of a text are derived one behind the other.** -/
theorem Segment.exists_matches (code : List Char) : ∃ trees, Segment.Matches code trees := by
  induction code using Segment.induction with
  | done code ends =>
      refine ⟨[], (Segment.statements_of_skip_eq_nil ends).symm, by simp, ?_⟩
      exact .of_suffix code.nil_suffix
  | step code more ih =>
      obtain ⟨trees, spelled, derived, bears⟩ := ih
      have inside := Segment.next_suffix code
      have first : Segment.statements code = (Segment.next code).1.statement?.toList ++
          Segment.statements (Segment.next code).2 := by
        rw [Segment.statements, Segment.all_eq_cons more, List.filterMap_cons]
        cases (Segment.next code).1.statement? <;> rfl
      have later : ∀ tree ∈ trees, ∃ start rest, start <:+ code ∧
          DerivesStatement start tree rest := by
        intro tree member
        obtain ⟨start, rest, within, derives⟩ := derived tree member
        exact ⟨start, rest, within.trans inside, derives⟩
      cases read : nextStatement.read code with
      | none =>
          rw [Segment.next_of_refused read] at inside spelled bears first
          exact ⟨trees, spelled.trans first.symm, later, .behind inside bears⟩
      | some found =>
          obtain ⟨stated, rest⟩ := found
          rw [Segment.next_of_read read] at spelled bears first
          rw [read_nextStatement] at read
          obtain ⟨tree, stop, derives, layout, same⟩ := statement_sound read
          refine ⟨tree :: trees, ?_, List.forall_mem_cons.mpr ⟨?_, later⟩, ?_⟩
          · rw [List.map_cons, spelled, same, first]
            rfl
          · exact ⟨skip code, stop, skip_suffix code, derives⟩
          · rw [List.flatMap_cons]
            exact .behind (skip_suffix code) ((derives.bears_of_read layout read).append bears)

/-! ## What a text enters -/

namespace TranslationUnit

variable (code : List Char)

/-- What the string constants of a text come to, given the trees of its statements.  The
table keeps its numbers and gains the new texts among those that are entered, in the order
of first occurrence.  It resolves the symbols of each clause to what the string constants
of the clause stand for. -/
structure Enters (unit : TranslationUnit) (table : SymbolTable) (trees : List StatementTree) :
    Prop where
  key : unit.symbols.key = table.key
  kept : ∀ (id : Nat) (text : String), table.resolve? id = some text →
    unit.symbols.resolve? id = some text
  gained : unit.symbols.texts = table.texts ++
    ((trees.flatMap StatementTree.strings).map textOf).eraseDups.filter fun text =>
      text ∉ table.texts
  own : ∀ clause ∈ unit.program.clauseList, ∀ symbol ∈ clause.symbols,
    symbol.table = table.key
  resolved : unit.program.clauseList.map (fun clause =>
      clause.symbols.map fun symbol => unit.symbols.resolve? symbol.id) =
    (trees.filterMap StatementTree.clause?).map fun tree => tree.texts.map some

/-- The clauses of a text hold the strings of its statements. -/
theorem strings_ofText {trees : List StatementTree}
    (spelled : trees.map StatementTree.spelled = Segment.statements code) (symbols : SymbolTable)
    (report : ErrorReport) (debug : DebugReport) :
    (ofText code symbols report debug).program.clauseList.map
        (fun clause => clause.content.constants.filterMap Sum.getRight?) =
      (trees.filterMap StatementTree.clause?).map ClauseTree.texts := by
  have contents := (ofText_holds code symbols report debug).contents
  rw [denotedClauses, ← spelled, List.flatMap_map] at contents
  have strings := congrArg (List.map fun clause => clause.constants.filterMap Sum.getRight?)
    contents
  rw [List.map_map, List.map_flatMap] at strings
  rw [List.filterMap_eq_flatMap_toList, List.map_flatMap]
  exact strings.trans (List.flatMap_congr fun tree _ => tree.strings_contents)

/-- **Reading a text enters its string constants.** -/
theorem ofText_enters {trees : List StatementTree}
    (spelled : trees.map StatementTree.spelled = Segment.statements code) (symbols : SymbolTable)
    (report : ErrorReport) (debug : DebugReport) :
    (ofText code symbols report debug).Enters symbols trees := by
  have texts : (Segment.statements code).flatMap Statement.texts =
      (trees.flatMap StatementTree.strings).map textOf := by
    rw [← spelled, List.flatMap_map, List.map_flatMap]
    exact List.flatMap_congr fun tree _ => tree.texts_spelled
  have gained := symbols.texts_insertAll ((Segment.statements code).flatMap Statement.texts)
  rw [← ofText_symbols code symbols report debug, texts] at gained
  have holds := ofText_holds code symbols report debug
  have numbered := ofText_numbered code symbols report debug
  refine ⟨holds.numbered, fun id text => ?_, gained, fun clause member symbol listed => ?_, ?_⟩
  · exact SymbolTable.resolve?_of_prefix (gained ▸ List.prefix_append _ _)
  · exact holds.owned clause member symbol (Clause.mem_symbols.mp listed)
  · have strings := congrArg (List.map (List.map some))
      (strings_ofText code spelled symbols report debug)
    rw [List.map_map, List.map_map] at strings
    refine Eq.trans (List.map_congr_left fun clause member => ?_) strings
    rw [Function.comp_apply, Clause.content, Clause.constants_map, filterMap_getRight?_map,
      List.map_map]
    refine List.map_congr_left fun symbol listed => ?_
    exact (numbered clause member symbol (Clause.mem_symbols.mp listed)).2

end TranslationUnit

end Datalog
