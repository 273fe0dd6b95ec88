import Datalog.Proofs.Grammar.Completeness
import Datalog.Proofs.SingleClause
import Datalog.Proofs.Viability.Phrase

/-!
# Clauses are viable

The phrases of clauses are viable for what is derived by the grammar.  Every level of
nesting is, because at every level some argument, atom, literal or body can be made up
without digits: the sign of the counter is an argument, and a name applied to nothing is
an atom.
-/

set_option autoImplicit false

namespace Datalog.Grammar

open Phrase Form

variable {text rest stop start : List Char}

/-! ## Lexemes -/

theorem Word.firm {name : String} (word : Word text name rest) :
    Firm (fun text rest => Word text name rest) text rest :=
  ⟨name.toList, word.spelled, fun _ replaces =>
    ⟨rfl, word.isName, replaces.beginsInName word.ends⟩⟩

theorem NumberText.firm {spelling : List Char} (number : NumberText text spelling rest) :
    Firm (fun text rest => NumberText text spelling rest) text rest :=
  ⟨spelling, number.spelled, fun _ replaces =>
    ⟨rfl, number.digits, replaces.beginsInName number.ends⟩⟩

theorem OperatorText.firm {operator : Comparison} (spelled : OperatorText text operator rest) :
    Firm (fun text rest => OperatorText text operator rest) text rest := by
  refine ⟨operator.operator.toList, spelled.spelled, fun other replaces => ⟨rfl, fun angle => ?_⟩⟩
  have apart : ∀ c ∈ other.head?, c ≠ '=' := by
    refine replaces.head? (p := fun c => c ≠ '=') ?_ ?_
    · rintro c lineEnd rfl
      exact absurd lineEnd (by decide)
    · rintro c member rfl
      exact spelled.ends angle member
  exact fun starts => apart '=' starts rfl

theorem firm_string {interior : List Char} (isInterior : Interior interior) (rest : List Char) :
    Firm (ofTrees DerivesArgument) ('"' :: (interior ++ '"' :: rest)) rest :=
  ⟨'"' :: (interior ++ ['"']), by simp, fun other _ =>
    ⟨.string interior, .string isInterior (by simp)⟩⟩

/-- A word written in front of a line. -/
theorem word_of_startsLine {name : String} (named : isName name = true)
    (starts : StartsLine rest) : Word (name.toList ++ rest) name rest :=
  have line : Replaces rest [] := .inr starts
  ⟨rfl, named, line.beginsInName rfl⟩

theorem viable_identifier : Viable identifier (ofTrees Word) := by
  apply Viable.terminal
  · exact productive_of "a" (by simp [Undigited]) fun rest starts =>
      ⟨"a", word_of_startsLine (by decide) starts⟩
  · intro text rest name read
    exact ((readName_eq_some_iff text name rest).mp read).firm.mono fun _ _ word => ⟨name, word⟩

theorem viable_operator : Viable operator (ofTrees OperatorText) := by
  apply Viable.terminal
  · exact productive_of "=" (by simp [Undigited]) fun rest _ => ⟨.equal, rfl, by simp⟩
  · intro text rest operator read
    exact ((readOperator_eq_some_iff text operator rest).mp read).firm.mono
      fun _ _ spelled => ⟨operator, spelled⟩

/-- The word for a kind of aggregate. -/
def kindForm : Form := ofTrees fun text (kind : AggregateKind) rest => Word text kind.keyword rest

theorem viable_aggregateKind : Viable aggregateKind kindForm := by
  apply Viable.terminal
  · exact productive_of "min" (by simp [Undigited]) fun rest starts =>
      ⟨.min, word_of_startsLine (by decide) starts⟩
  · intro text rest kind read
    obtain ⟨name, word, meant⟩ := (readWord_eq_some_iff _ _ _ _).mp read
    obtain rfl := (ofKeyword?_eq_some_iff name kind).mp meant
    exact word.firm.mono fun _ _ word => ⟨kind, word⟩

/-! ## Forms of sequences -/

section Sequences

variable {τ : Type} {Derives : List Char → τ → List Char → Prop}

theorem exists_separated_of_repeats
    (repeats : Repeats (both (sign ",") (ofTrees Derives)) start rest) {tree : τ}
    (item : Derives text tree stop) (layout : Layout stop start) :
    ∃ trees last, Separated Derives text trees last ∧ Layout last rest := by
  induction repeats generalizing text stop tree with
  | done further => exact ⟨[tree], stop, .single item, layout.trans further⟩
  | more before next others ih =>
      obtain ⟨comma, inner, rfl, behind, tree', item'⟩ := next
      obtain ⟨trees, last, separated, further⟩ := ih item' (.nothing _)
      exact ⟨tree :: trees, last, .more item (layout.trans before) behind separated, further⟩

theorem exists_separated (holds : separated (ofTrees Derives) text rest) :
    ∃ trees last, Separated Derives text trees last ∧ Layout last rest := by
  obtain ⟨stop, start, ⟨tree, item⟩, layout, repeats⟩ := holds
  exact exists_separated_of_repeats repeats item layout

theorem enclosed_le {opening closing : String} {first last : Char}
    (opens : opening.toList = [first]) (closes : closing.toList = [last]) :
    Form.enclosed opening closing (ofTrees Derives) ≤ ofTrees (Enclosed Derives first last) := by
  rintro text rest ⟨stop, start, ⟨inner, next, opened, before, listed⟩, behind, closed⟩
  rw [sign, opens, List.singleton_append] at opened
  rw [sign, closes, List.singleton_append] at closed
  subst opened closed
  rcases listed with items | rfl
  · obtain ⟨trees, last, separated, layout⟩ := exists_separated items
    exact ⟨trees, .filled before separated (layout.trans behind)⟩
  · exact ⟨[], .empty (before.trans behind)⟩

end Sequences

/-! ## Arguments and literals -/

theorem productive_argument : Productive (ofTrees DerivesArgument) :=
  productive_of "$" (by simp [Undigited]) fun _ _ => ⟨.counter, .counter⟩

theorem viable_nil : Viable nil (ofTrees DerivesArgument) := by
  refine .terminal _ productive_argument fun text rest nothing read => ?_
  exact ((readLiteralWord_iff _ _ nothing _).mp read).firm.mono fun _ _ word => ⟨.nil, .nil word⟩

theorem viable_counter : Viable counter (ofTrees DerivesArgument) := by
  refine .terminal _ productive_argument fun text rest nothing read => ?_
  refine (firm_sign ((read_token_iff "$" text nothing rest).mp read)).mono ?_
  rintro text rest rfl
  exact ⟨.counter, .counter⟩

/-- A numeral is no number without digits, but another argument may stand in its place. -/
theorem viable_number : Viable number (ofTrees DerivesArgument) := by
  refine .terminal _ productive_argument fun text rest numeral read => ?_
  exact ((readNumeral_eq_some_iff text numeral rest).mp read).1.firm.mono
    fun text _ digits => ⟨.number ⟨numeral.spelling, text.length⟩, .number digits⟩

theorem viable_string : Viable string (ofTrees DerivesArgument) := by
  refine .terminal _ productive_argument fun text rest value read => ?_
  obtain ⟨interior, isInterior, rfl, -⟩ := of_readString read
  exact firm_string isInterior rest

theorem viable_unnamed : Viable unnamed (ofTrees DerivesArgument) := by
  refine .terminal _ productive_argument fun text rest nothing read => ?_
  exact ((readLiteralWord_iff _ _ nothing _).mp read).firm.mono
    fun _ _ word => ⟨.unnamed, .unnamed word⟩

theorem viable_variableName : Viable variableName (ofTrees DerivesArgument) := by
  refine .terminal _ productive_argument fun text rest name read => ?_
  obtain ⟨word, unreserved⟩ := (read_variableName_iff text name rest).mp read
  refine word.firm.mono fun text rest word => ?_
  by_cases anonymous : name = "_"
  · exact ⟨.unnamed, .unnamed (anonymous ▸ word)⟩
  · exact ⟨.variable name, .free word unreserved anonymous⟩

section Contents

variable {inside : Phrase SpelledArgument} (viable : Viable inside (ofTrees DerivesArgument))

include viable

theorem viable_atomOver : Viable (atomOver inside) (ofTrees DerivesAtom) := by
  have arguments := viable.enclosed "(" ")" (by simp [Undigited]) (by simp [Undigited])
  refine .named _ (.mono ?_ ((viable_identifier.map _).seq arguments))
  rintro text rest ⟨mark, inner, ⟨name, word⟩, before, contents⟩
  obtain ⟨trees, enclosed⟩ := enclosed_le (by rfl) (by rfl) _ _ contents
  exact ⟨.applied name trees, .applied word before enclosed⟩

theorem viable_negationOver : Viable (negationOver inside) (ofTrees DerivesLiteral) := by
  have mark : Viable (token "!") (sign "!") := .token (by simp [Undigited])
  refine .named _ (.mono ?_ ((mark.seqRight (viable_atomOver viable)).map _))
  rintro text rest ⟨inner, start, rfl, behind, tree, contents⟩
  exact ⟨.negation tree, .negation behind contents⟩

theorem viable_comparisonOver : Viable (comparisonOver inside) (ofTrees DerivesLiteral) := by
  refine .named _ (.mono ?_ (((viable.map _).seq viable_operator).seq viable))
  rintro text rest ⟨inner, start, ⟨stop, mark, ⟨left, first⟩, before, operator, spelled⟩, behind,
    right, second⟩
  exact ⟨.comparison left operator right, .comparison first before spelled behind second⟩

theorem viable_literalOver : Viable (literalOver inside) (ofTrees DerivesLiteral) := by
  have atom : Viable (atomOver inside) (ofTrees DerivesLiteral) :=
    .mono (fun _ _ ⟨tree, contents⟩ => ⟨.atom tree, .atom contents⟩) (viable_atomOver viable)
  have constant : Viable truth (ofTrees DerivesLiteral) := by
    refine .terminal _ atom.productive fun text rest value read => ?_
    exact ((read_truth_iff text value rest).mp read).firm.mono
      fun _ _ word => ⟨.truth value, .truth word⟩
  exact .named _ ((viable_negationOver viable).orElse ((atom.map _).orElse
    ((viable_comparisonOver viable).orElse (constant.map _))))

theorem viable_aggregateBodyOver : Viable (aggregateBodyOver inside) (ofTrees DerivesBody) := by
  have literals := (viable_literalOver viable).enclosed "\x7b" "\x7d" (by simp [Undigited])
    (by simp [Undigited])
  refine .named _ (.orElse (.mono ?_ literals) ((viable_atomOver viable).map _ |>.mono ?_))
  · rintro text rest contents
    obtain ⟨trees, enclosed⟩ := enclosed_le (by rfl) (by rfl) _ _ contents
    exact ⟨.braced trees, .braced enclosed⟩
  · rintro text rest ⟨tree, contents⟩
    exact ⟨.bare tree, .bare contents⟩

theorem viable_aggregateOver : Viable (aggregateOver inside) (ofTrees DerivesArgument) := by
  have colon : Viable (token ":") (sign ":") := .token (by simp [Undigited])
  have contents := colon.seqRight (viable_aggregateBodyOver viable)
  refine .named _ (.mono ?_ (((viable_aggregateKind.map _).seq viable.maybe).seq contents))
  rintro text rest ⟨stop, next, ⟨mark, first, ⟨kind, word⟩, front, target⟩, before, inner, start,
    rfl, behind, body, contents⟩
  rcases target with ⟨tree, reduced⟩ | rfl
  · exact ⟨.aggregate kind (some tree) body, .targeted word front reduced before behind contents⟩
  · exact ⟨.aggregate kind none body, .untargeted word (front.trans before) behind contents⟩

theorem viable_argumentOver : Viable (argumentOver inside) (ofTrees DerivesArgument) :=
  .named _ ((viable_aggregateOver viable).orElse ((viable_nil.map _).orElse
    ((viable_counter.map _).orElse ((viable_number.map _).orElse ((viable_string.map _).orElse
      ((viable_unnamed.map _).orElse (viable_variableName.map _)))))))

end Contents

/-- **Arguments are viable at every level of nesting.** -/
theorem viable_nested (depth : Nat) :
    Viable (nested argumentOver depth) (ofTrees DerivesArgument) := by
  induction depth with
  | zero => exact .lexeme productive_argument fun _ _ _ read => nomatch read
  | succ depth ih =>
      have deferred : Viable (defer fun _ => nested argumentOver depth)
          (ofTrees DerivesArgument) := ⟨ih.productive, ih.read, ih.attempt⟩
      exact viable_argumentOver deferred

theorem viable_argument : Viable argument (ofTrees DerivesArgument) where
  productive := productive_argument
  read text _ _ read := (viable_nested (text.length + 1)).read read
  attempt _ _ _ text _ split expects := (viable_nested (text.length + 1)).attempt split expects

/-! ## Clauses -/

theorem viable_clause : Viable clause (ofTrees DerivesClause) := by
  have announced : Viable (token ":-") (sign ":-") := .token (by simp [Undigited])
  have terminator : Viable (token ".") (sign ".") := .token (by simp [Undigited])
  have contents : Viable body (Form.both (sign ":-") (separated (ofTrees DerivesLiteral))) :=
    .named _ (announced.seqRight (viable_literalOver viable_argument).commaSeparated)
  have head := viable_atomOver viable_argument
  refine .named _ (.mono ?_ (((head.map _).seq contents.maybe).seqLeft terminator))
  rintro text rest ⟨last, stands, ⟨stop, next, ⟨tree, first⟩, before, found⟩, behind, rfl⟩
  rcases found with ⟨inner, start, rfl, front, listed⟩ | rfl
  · obtain ⟨trees, left, separated, further⟩ := exists_separated listed
    exact ⟨⟨tree, trees⟩, .rule first before front separated (further.trans behind)⟩
  · exact ⟨⟨tree, []⟩, .fact first (before.trans behind)⟩

end Datalog.Grammar
