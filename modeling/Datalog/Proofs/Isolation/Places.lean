import Datalog.Proofs.Grammar.Starts
import Datalog.Proofs.Interning
import Datalog.Segment

/-!
# Places within a text

The numerals of a clause lie between the place where the clause starts and the place
where it ends (`Grammar.DerivesClause.placedBetween`).
-/

set_option autoImplicit false

namespace Datalog

open Grammar

/-! ## Numerals -/

/-- The numerals among some constants begin within the last characters of a text,
of which there are as many as the limit says. -/
def PlacedIn (limit : Nat) (constants : List (Numeral ⊕ String)) : Prop :=
  ∀ numeral, .inl numeral ∈ constants → numeral.remaining ≤ limit

/-- The numerals among some constants begin within the last characters of a text, but
in front of a stop, which is also named by the characters that remain there. -/
def PlacedBetween (stop limit : Nat) (constants : List (Numeral ⊕ String)) : Prop :=
  ∀ numeral, .inl numeral ∈ constants → stop < numeral.remaining ∧ numeral.remaining ≤ limit

section Constants

variable {stop limit : Nat}

theorem PlacedBetween.placedIn {constants : List (Numeral ⊕ String)}
    (placed : PlacedBetween stop limit constants) : PlacedIn limit constants :=
  fun numeral member => (placed numeral member).2

theorem placedBetween_nil : PlacedBetween stop limit [] := by simp [PlacedBetween]

theorem placedBetween_append {front rest : List (Numeral ⊕ String)}
    (first : PlacedBetween stop limit front) (second : PlacedBetween stop limit rest) :
    PlacedBetween stop limit (front ++ rest) := by
  intro numeral member
  exact (List.mem_append.mp member).elim (first numeral) (second numeral)

theorem placedBetween_arguments {trees : List ArgumentTree}
    (all : ∀ tree ∈ trees, PlacedBetween stop limit tree.spelled.constants) :
    PlacedBetween stop limit (Argument.constantsAll (ArgumentTree.spelledAll trees)) := by
  induction trees with
  | nil => exact placedBetween_nil
  | cons tree trees ih =>
      exact placedBetween_append (all tree List.mem_cons_self)
        (ih fun other member => all other (List.mem_cons_of_mem _ member))

theorem placedBetween_literals {trees : List LiteralTree}
    (all : ∀ tree ∈ trees, PlacedBetween stop limit tree.spelled.constants) :
    PlacedBetween stop limit (Literal.constantsAll (LiteralTree.spelledAll trees)) := by
  induction trees with
  | nil => exact placedBetween_nil
  | cons tree trees ih =>
      exact placedBetween_append (all tree List.mem_cons_self)
        (ih fun other member => all other (List.mem_cons_of_mem _ member))

end Constants

mutual
/-- **The numerals of an argument begin within the text it was derived from**, in front
of what is left. -/
theorem Grammar.DerivesArgument.placedBetween {text rest : List Char} {tree : ArgumentTree}
    {stop limit : Nat} (derives : DerivesArgument text tree rest) (bound : text.length ≤ limit)
    (reach : stop ≤ rest.length) : PlacedBetween stop limit tree.spelled.constants := by
  cases derives with
  | untargeted word before behind contents =>
      have first := word.length_lt
      have second := before.length_le
      have third := behind.length_le
      rw [List.length_cons] at second
      exact contents.placedBetween (by omega) reach
  | targeted word front reduced before behind contents =>
      have first := word.length_lt
      have second := front.length_le
      have third := reduced.length_lt
      have fourth := before.length_le
      have fifth := behind.length_le
      have sixth := contents.length_lt
      rw [List.length_cons] at fourth
      exact placedBetween_append (reduced.placedBetween (by omega) (by omega))
        (contents.placedBetween (by omega) reach)
  | number digits =>
      have shorter := digits.length_lt
      intro numeral member
      obtain rfl := Sum.inl.inj (List.mem_singleton.mp member)
      exact ⟨Nat.lt_of_le_of_lt reach shorter, bound⟩
  | string isInterior spelled =>
      intro numeral member
      cases List.mem_singleton.mp member
  | nil | counter | unnamed | free => exact placedBetween_nil
termination_by 2 * text.length
decreasing_by all_goals (subst_vars; simp only [List.length_cons] at *; omega)

theorem Grammar.DerivesBody.placedBetween {text rest : List Char} {tree : BodyTree}
    {stop limit : Nat} (derives : DerivesBody text tree rest) (bound : text.length ≤ limit)
    (reach : stop ≤ rest.length) :
    PlacedBetween stop limit (Literal.constantsAll tree.spelled) := by
  cases derives with
  | braced contents =>
      exact placedBetween_literals (contents.forall (fun item => item.length_lt)
        fun shorter longer item => item.placedBetween (by omega) (by omega))
  | bare contents =>
      exact placedBetween_append (contents.placedBetween bound reach) placedBetween_nil
termination_by 2 * text.length + 1
decreasing_by all_goals (subst_vars; omega)

theorem Grammar.DerivesAtom.placedBetween {text rest : List Char} {tree : AtomTree}
    {stop limit : Nat} (derives : DerivesAtom text tree rest) (bound : text.length ≤ limit)
    (reach : stop ≤ rest.length) :
    PlacedBetween stop limit (Argument.constantsAll tree.spelled.arguments) := by
  cases derives with
  | applied word before contents =>
      have first := word.length_lt
      have second := before.length_le
      exact placedBetween_arguments (contents.forall (fun item => item.length_lt)
        fun shorter longer item => item.placedBetween (by omega) (by omega))
termination_by 2 * text.length
decreasing_by all_goals (subst_vars; omega)

theorem Grammar.DerivesLiteral.placedBetween {text rest : List Char} {tree : LiteralTree}
    {stop limit : Nat} (derives : DerivesLiteral text tree rest) (bound : text.length ≤ limit)
    (reach : stop ≤ rest.length) : PlacedBetween stop limit tree.spelled.constants := by
  cases derives with
  | negation behind contents =>
      have first := behind.length_le
      rw [List.length_cons] at bound
      exact contents.placedBetween (by omega) reach
  | atom contents => exact contents.placedBetween bound reach
  | comparison left before sign behind right =>
      have first := left.length_lt
      have second := before.length_le
      have third := sign.length_lt
      have fourth := behind.length_le
      have fifth := right.length_lt
      exact placedBetween_append (left.placedBetween bound (by omega))
        (right.placedBetween (by omega) reach)
  | truth word => exact placedBetween_nil
termination_by 2 * text.length + 1
decreasing_by all_goals (subst_vars; simp only [List.length_cons] at *; omega)
end

/-- **The numerals of a clause begin inside it.** -/
theorem Grammar.DerivesClause.placedBetween {text rest : List Char} {tree : ClauseTree}
    (derives : DerivesClause text tree rest) :
    PlacedBetween rest.length text.length tree.spelled.constants := by
  cases derives with
  | fact head behind =>
      have last := behind.length_le
      rw [List.length_cons] at last
      exact placedBetween_append (head.placedBetween (Nat.le_refl _) (by omega)) placedBetween_nil
  | rule head before front contents behind =>
      have first := head.length_lt
      have second := before.length_le
      have third := front.length_le
      have fourth := contents.length_lt fun _ item => item.length_lt
      have last := behind.length_le
      simp only [List.length_cons] at second last
      refine placedBetween_append (head.placedBetween (Nat.le_refl _) (by omega)) ?_
      refine placedBetween_literals (contents.forall (fun item => item.length_lt) ?_)
      intro _ _ _ shorter longer item
      exact item.placedBetween (by omega) (by omega)

/-! ## Segments -/

/-- The places that a segment names are within the last characters of a text, of
which there are as many as the limit says. -/
def Segment.PlacedIn (limit : Nat) (segment : Segment) : Prop :=
  match segment.reading with
  | .statement start (.declaration _) => start ≤ limit
  | .statement _ (.clause spelled) => Datalog.PlacedIn limit spelled.constants
  | .malformed fault => fault.remaining ≤ limit

end Datalog
