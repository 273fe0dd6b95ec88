import Datalog.Proofs.Grammar.Starts
import Datalog.Proofs.Tree.Constants

/-!
# The constants of a derivation tree

The leaves of a tree that are numerals or string constants, from left to right.  A
string constant is a leaf as it is written; the clause that the tree stands for holds it
with its escapes undone (`ClauseTree.constants_spelled`).

From left to right in the tree is from left to right in the text: where a clause has been
derived, its constants are written one behind the other (`DerivesClause.bears`).
-/

set_option autoImplicit false

namespace Datalog.Grammar

/-! ## Leaves -/

mutual
/-- The constants of an argument, from left to right. -/
def ArgumentTree.constants : ArgumentTree → List (Numeral ⊕ List Char)
  | .aggregate _ none body => body.constants
  | .aggregate _ (some target) body => target.constants ++ body.constants
  | .number numeral => [.inl numeral]
  | .string interior => [.inr interior]
  | .nil | .counter | .unnamed | .variable _ => []

/-- The constants of arguments, from left to right. -/
def ArgumentTree.constantsAll : List ArgumentTree → List (Numeral ⊕ List Char)
  | [] => []
  | tree :: trees => tree.constants ++ ArgumentTree.constantsAll trees

/-- The constants of the body of an aggregate, from left to right. -/
def BodyTree.constants : BodyTree → List (Numeral ⊕ List Char)
  | .braced literals => LiteralTree.constantsAll literals
  | .bare atom => atom.constants

/-- The constants of an atom, from left to right. -/
def AtomTree.constants : AtomTree → List (Numeral ⊕ List Char)
  | .applied _ arguments => ArgumentTree.constantsAll arguments

/-- The constants of a literal, from left to right. -/
def LiteralTree.constants : LiteralTree → List (Numeral ⊕ List Char)
  | .negation atom | .atom atom => atom.constants
  | .comparison left _ right => left.constants ++ right.constants
  | .truth _ => []

/-- The constants of literals, from left to right. -/
def LiteralTree.constantsAll : List LiteralTree → List (Numeral ⊕ List Char)
  | [] => []
  | tree :: trees => tree.constants ++ LiteralTree.constantsAll trees
end

/-- The constants of a clause, from left to right. -/
def ClauseTree.constants (tree : ClauseTree) : List (Numeral ⊕ List Char) :=
  tree.head.constants ++ LiteralTree.constantsAll tree.body

/-- The constants of a statement, from left to right. -/
def StatementTree.constants : StatementTree → List (Numeral ⊕ List Char)
  | .declaration _ => []
  | .clause tree => tree.constants

theorem ArgumentTree.constantsAll_eq_flatMap (trees : List ArgumentTree) :
    ArgumentTree.constantsAll trees = trees.flatMap ArgumentTree.constants := by
  induction trees with
  | nil => rfl
  | cons tree trees ih => rw [ArgumentTree.constantsAll, ih, List.flatMap_cons]

theorem LiteralTree.constantsAll_eq_flatMap (trees : List LiteralTree) :
    LiteralTree.constantsAll trees = trees.flatMap LiteralTree.constants := by
  induction trees with
  | nil => rfl
  | cons tree trees ih => rw [LiteralTree.constantsAll, ih, List.flatMap_cons]

/-! ## What the leaves stand for -/

/-- The text that a string constant stands for, given its interior. -/
def textOf (interior : List Char) : String := String.ofList (Text.unescape interior)

mutual
theorem ArgumentTree.constants_spelled : ∀ tree : ArgumentTree,
    tree.spelled.constants = tree.constants.map (Sum.map id textOf)
  | .aggregate _ none body => body.constants_spelled
  | .aggregate _ (some target) body => by
      rw [ArgumentTree.spelled, Argument.constants, ArgumentTree.constants, List.map_append,
        target.constants_spelled, body.constants_spelled]
  | .number _ | .string _ | .nil | .counter | .unnamed | .variable _ => rfl

theorem ArgumentTree.constantsAll_spelledAll : ∀ trees : List ArgumentTree,
    Argument.constantsAll (ArgumentTree.spelledAll trees) =
      (ArgumentTree.constantsAll trees).map (Sum.map id textOf)
  | [] => rfl
  | tree :: trees => by
      rw [ArgumentTree.spelledAll, Argument.constantsAll, ArgumentTree.constantsAll,
        List.map_append, tree.constants_spelled, ArgumentTree.constantsAll_spelledAll trees]

theorem BodyTree.constants_spelled : ∀ tree : BodyTree,
    Literal.constantsAll tree.spelled = tree.constants.map (Sum.map id textOf)
  | .braced literals => LiteralTree.constantsAll_spelledAll literals
  | .bare atom => (List.append_nil _).trans atom.constants_spelled

theorem AtomTree.constants_spelled : ∀ tree : AtomTree,
    Argument.constantsAll tree.spelled.arguments = tree.constants.map (Sum.map id textOf)
  | .applied _ arguments => ArgumentTree.constantsAll_spelledAll arguments

theorem LiteralTree.constants_spelled : ∀ tree : LiteralTree,
    tree.spelled.constants = tree.constants.map (Sum.map id textOf)
  | .negation atom | .atom atom => atom.constants_spelled
  | .comparison left _ right => by
      rw [LiteralTree.spelled, Literal.constants, LiteralTree.constants, List.map_append,
        left.constants_spelled, right.constants_spelled]
  | .truth _ => rfl

theorem LiteralTree.constantsAll_spelledAll : ∀ trees : List LiteralTree,
    Literal.constantsAll (LiteralTree.spelledAll trees) =
      (LiteralTree.constantsAll trees).map (Sum.map id textOf)
  | [] => rfl
  | tree :: trees => by
      rw [LiteralTree.spelledAll, Literal.constantsAll, LiteralTree.constantsAll,
        List.map_append, tree.constants_spelled, LiteralTree.constantsAll_spelledAll trees]
end

/-- **A clause holds the constants of its tree**, with the escapes undone. -/
theorem ClauseTree.constants_spelled (tree : ClauseTree) :
    tree.spelled.constants = tree.constants.map (Sum.map id textOf) := by
  rw [ClauseTree.spelled, Clause.constants, ClauseTree.constants, List.map_append,
    tree.head.constants_spelled, LiteralTree.constantsAll_spelledAll]

/-! ## Leaves in the text -/

/-- In the text, in front of the rest, the constants are written one behind the other. -/
inductive Bears : List Char → List (Numeral ⊕ List Char) → List Char → Prop
  | done {text : List Char} : Bears text [] text
  /-- Something else is written first. -/
  | pass {c : Char} {text rest : List Char} {constants : List (Numeral ⊕ List Char)}
      (behind : Bears text constants rest) : Bears (c :: text) constants rest
  | number {text spelling stop rest : List Char} {constants : List (Numeral ⊕ List Char)}
      (digits : NumberText text spelling stop) (behind : Bears stop constants rest) :
      Bears text (.inl ⟨spelling, text.length⟩ :: constants) rest
  | string {interior stop rest : List Char} {constants : List (Numeral ⊕ List Char)}
      (isInterior : Interior interior) (behind : Bears stop constants rest) :
      Bears ('"' :: (interior ++ '"' :: stop)) (.inr interior :: constants) rest

namespace Bears

variable {text start stop rest : List Char} {front constants : List (Numeral ⊕ List Char)}

protected theorem append (first : Bears text front stop) (second : Bears stop constants rest) :
    Bears text (front ++ constants) rest := by
  induction first with
  | done => exact second
  | pass _ ih => exact .pass (ih second)
  | number digits _ ih => exact .number digits (ih second)
  | string isInterior _ ih => exact .string isInterior (ih second)

/-- No constant at all is written in front of a suffix. -/
theorem of_suffix (suffix : rest <:+ text) : Bears text [] rest := by
  obtain ⟨passed, rfl⟩ := suffix
  induction passed with
  | nil => exact .done
  | cons c passed ih => exact .pass ih

theorem behind (suffix : start <:+ text) (bears : Bears start constants rest) :
    Bears text constants rest :=
  (of_suffix suffix).append bears

theorem before (bears : Bears text constants stop) (suffix : rest <:+ stop) :
    Bears text constants rest :=
  List.append_nil constants ▸ bears.append (of_suffix suffix)

end Bears

/-! ## Derivations -/

section Sequences

variable {τ : Type} {Derives : List Char → τ → List Char → Prop} {opening closing : Char}
  {text rest : List Char} {trees : List τ} {leaves : τ → List (Numeral ⊕ List Char)}

theorem Separated.bears (separated : Separated Derives text trees rest)
    (shrinks : ∀ {text' tree rest'}, Derives text' tree rest' → rest'.length < text'.length)
    (item : ∀ {text' tree rest'}, text'.length ≤ text.length → Derives text' tree rest' →
      Bears text' (leaves tree) rest') : Bears text (trees.flatMap leaves) rest := by
  induction separated with
  | single first =>
      rw [List.flatMap_singleton]
      exact item (Nat.le_refl _) first
  | more first before behind others ih =>
      have shorter := shrinks first
      have second := before.length_le
      have third := behind.length_le
      rw [List.length_cons] at second
      rw [List.flatMap_cons]
      refine (item (Nat.le_refl _) first).append (.behind before.suffix (.pass ?_))
      exact .behind behind.suffix (ih fun bound derives => item (by omega) derives)

theorem Enclosed.bears (enclosed : Enclosed Derives opening closing text trees rest)
    (shrinks : ∀ {text' tree rest'}, Derives text' tree rest' → rest'.length < text'.length)
    (item : ∀ {text' tree rest'}, text'.length < text.length → Derives text' tree rest' →
      Bears text' (leaves tree) rest') : Bears text (trees.flatMap leaves) rest := by
  cases enclosed with
  | empty before => exact .pass (.behind before.suffix (.pass .done))
  | filled before items behind =>
      have bound := before.length_le
      have inside := items.bears shrinks fun shorter derives =>
        item (by rw [List.length_cons]; omega) derives
      exact .pass (.behind before.suffix
        (inside.before ((List.suffix_cons closing rest).trans behind.suffix)))

end Sequences

mutual
theorem DerivesArgument.bears {text rest : List Char} {tree : ArgumentTree}
    (derives : DerivesArgument text tree rest) : Bears text tree.constants rest := by
  cases derives with
  | untargeted word before behind contents =>
      have first := word.length_lt
      have second := before.length_le
      have third := behind.length_le
      exact .behind word.suffix (.behind before.suffix (.pass (.behind behind.suffix
        contents.bears)))
  | targeted word front reduced before behind contents =>
      have first := word.length_lt
      have second := front.length_le
      have third := reduced.length_lt
      have fourth := before.length_le
      have fifth := behind.length_le
      exact .behind word.suffix (.behind front.suffix (reduced.bears.append
        (.behind before.suffix (.pass (.behind behind.suffix contents.bears)))))
  | number digits => exact .number digits .done
  | string isInterior spelled =>
      subst spelled
      exact .string isInterior .done
  | counter => exact .pass .done
  | nil word | unnamed word | free word => exact .of_suffix word.suffix
termination_by 2 * text.length
decreasing_by all_goals (subst_vars; simp only [List.length_cons] at *; omega)

theorem DerivesBody.bears {text rest : List Char} {tree : BodyTree}
    (derives : DerivesBody text tree rest) : Bears text tree.constants rest := by
  cases derives with
  | braced contents =>
      rw [BodyTree.constants, LiteralTree.constantsAll_eq_flatMap]
      exact contents.bears (fun item => item.length_lt) fun shorter item => item.bears
  | bare contents => exact contents.bears
termination_by 2 * text.length + 1
decreasing_by all_goals (subst_vars; omega)

theorem DerivesAtom.bears {text rest : List Char} {tree : AtomTree}
    (derives : DerivesAtom text tree rest) : Bears text tree.constants rest := by
  cases derives with
  | applied word before contents =>
      have first := word.length_lt
      have second := before.length_le
      rw [AtomTree.constants, ArgumentTree.constantsAll_eq_flatMap]
      exact .behind word.suffix (.behind before.suffix
        (contents.bears (fun item => item.length_lt) fun shorter item => item.bears))
termination_by 2 * text.length
decreasing_by all_goals (subst_vars; omega)

theorem DerivesLiteral.bears {text rest : List Char} {tree : LiteralTree}
    (derives : DerivesLiteral text tree rest) : Bears text tree.constants rest := by
  cases derives with
  | negation behind contents =>
      have first := behind.length_le
      exact .pass (.behind behind.suffix contents.bears)
  | atom contents => exact contents.bears
  | comparison left before sign behind right =>
      have first := left.length_lt
      have second := before.length_le
      have third := sign.length_lt
      have fourth := behind.length_le
      have signed := sign.spelled ▸ List.suffix_append _ _
      exact left.bears.append (.behind before.suffix (.behind signed (.behind behind.suffix
        right.bears)))
  | truth word => exact .of_suffix word.suffix
termination_by 2 * text.length + 1
decreasing_by all_goals (subst_vars; simp only [List.length_cons] at *; omega)
end

/-- **The constants of a clause are written from left to right.** -/
theorem DerivesClause.bears {text rest : List Char} {tree : ClauseTree}
    (derives : DerivesClause text tree rest) : Bears text tree.constants rest := by
  cases derives with
  | fact head behind =>
      rw [ClauseTree.constants, LiteralTree.constantsAll, List.append_nil]
      exact head.bears.before ((List.suffix_cons '.' rest).trans behind.suffix)
  | rule head before front contents behind =>
      rw [ClauseTree.constants, LiteralTree.constantsAll_eq_flatMap]
      refine head.bears.append (.behind before.suffix (.pass (.pass (.behind front.suffix ?_))))
      exact (contents.bears (fun item => item.length_lt) fun _ item => item.bears).before
        ((List.suffix_cons '.' rest).trans behind.suffix)

end Datalog.Grammar
