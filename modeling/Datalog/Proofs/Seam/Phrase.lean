import Datalog.Proofs.Printer.Clause
import Datalog.Proofs.Seam.Lexeme

/-!
# Phrases in front of a seam

Arguments and literals, and what is made of them short of a whole clause, stay in
front of a seam: where one is derived it ends in front of the seam, and whatever line
stands behind the seam, a phrase of the same meaning is derived from the same letters
(`Seam.argument` and its companions).  Only the places of numerals change, because a
place is named by the number of characters that remain.
-/

set_option autoImplicit false

namespace Datalog.Grammar

/-! ## Meanings of trees -/

theorem ArgumentTree.meaning_untargeted (kind : AggregateKind) (body : BodyTree) :
    (ArgumentTree.aggregate kind none body).meaning = .aggregate kind none body.meaning := rfl

theorem ArgumentTree.meaning_targeted (kind : AggregateKind) (target : ArgumentTree)
    (body : BodyTree) :
    (ArgumentTree.aggregate kind (some target) body).meaning =
      .aggregate kind (some target.meaning) body.meaning := rfl

theorem LiteralTree.meaning_comparison (left : ArgumentTree) (operator : Comparison)
    (right : ArgumentTree) :
    (LiteralTree.comparison left operator right).meaning =
      .comparison operator left.meaning right.meaning := rfl

theorem AtomTree.meaning_applied (name : String) (arguments : List ArgumentTree) :
    (AtomTree.applied name arguments).meaning = ⟨name, arguments.map ArgumentTree.meaning⟩ := by
  rw [AtomTree.meaning, AtomTree.spelled, Atom.map, ArgumentTree.mapAll_spelledAll]

theorem BodyTree.meaning_braced (literals : List LiteralTree) :
    (BodyTree.braced literals).meaning = literals.map LiteralTree.meaning := by
  rw [BodyTree.meaning, BodyTree.spelled, LiteralTree.mapAll_spelledAll]

/-- A phrase with the meaning of a tree is derived. -/
def Alike {τ μ : Type} (Derives : List Char → τ → List Char → Prop) (meaning : τ → μ) (tree : τ)
    (text rest : List Char) : Prop :=
  ∃ tree', meaning tree' = meaning tree ∧ Derives text tree' rest

/-! ## Sequences -/

section Sequences

variable {τ μ : Type} {Derives : List Char → τ → List Char → Prop} {meaning : τ → μ}
  {front behind rest : List Char} {trees : List τ} {opening closing : Char}

theorem Separated.head_ne {c : Char} {text : List Char}
    (heads : ∀ {text tree rest}, Derives text tree rest → text.head? ≠ some c)
    (separated : Separated Derives text trees rest) : text.head? ≠ some c := by
  cases separated with
  | single item | more item => exact heads item

/-- A sequence of phrases that stay in front of the seam stays there. -/
theorem Seam.separated (seam : Seam front behind)
    (separated : Separated Derives (front ++ behind) trees rest)
    (heads : ∀ {text tree rest}, Derives text tree rest → text.head? ≠ some '.')
    (shrinks : ∀ {text tree rest}, Derives text tree rest → rest.length < text.length)
    (stays : ∀ {front' tree rest'}, (front' ++ behind).length ≤ (front ++ behind).length →
      Seam front' behind → Derives (front' ++ behind) tree rest' →
        Stays (Alike Derives meaning tree) front' behind rest') :
    Stays (Alike (Separated Derives) (List.map meaning) trees) front behind rest := by
  generalize same : front ++ behind = text at separated
  induction separated generalizing front with
  | single item =>
      subst same
      obtain ⟨left, rfl, kept, moved⟩ := stays (Nat.le_refl _) seam item
      refine ⟨left, rfl, kept, fun other starts => ?_⟩
      obtain ⟨tree', meant, item'⟩ := moved other starts
      exact ⟨[tree'], by rw [List.map_singleton, List.map_singleton, meant], .single item'⟩
  | more item before gap others ih =>
      subst same
      have first := shrinks item
      have second := before.length_le
      have third := gap.length_le
      rw [List.length_cons] at second
      obtain ⟨stop, rfl, kept, moved⟩ := stays (Nat.le_refl _) seam item
      have seam := seam.left kept
      obtain ⟨comma, rfl, kept₁, moved'⟩ := seam.layout_sign before (by decide)
      have seam := seam.left kept₁
      obtain ⟨next, rfl, kept₂, moved''⟩ := seam.layout_of_ne gap (others.head_ne heads)
      have seam := seam.left kept₂
      obtain ⟨left, rfl, kept₃, moved'''⟩ :=
        ih seam (fun bound => stays (Nat.le_trans bound (by omega))) rfl
      refine ⟨left, rfl, fun inCode => kept₃ (kept₂ (kept₁ (kept inCode))),
        fun other starts => ?_⟩
      obtain ⟨tree', meant, item'⟩ := moved other starts
      obtain ⟨trees', meant', others'⟩ := moved''' other starts
      refine ⟨tree' :: trees', by rw [List.map_cons, List.map_cons, meant, meant'], ?_⟩
      exact .more item' (moved' other starts) (moved'' other starts) others'

/-- A sequence in signs stays in front of the seam. -/
theorem Seam.enclosed (seam : Seam front behind)
    (enclosed : Enclosed Derives opening closing (front ++ behind) trees rest)
    (isOpening : opening ∉ ['"', '/', '\n', '.']) (isClosing : closing ∉ ['"', '/', '\n', '.'])
    (heads : ∀ {text tree rest}, Derives text tree rest → text.head? ≠ some '.')
    (shrinks : ∀ {text tree rest}, Derives text tree rest → rest.length < text.length)
    (stays : ∀ {front' tree rest'}, (front' ++ behind).length < (front ++ behind).length →
      Seam front' behind → Derives (front' ++ behind) tree rest' →
        Stays (Alike Derives meaning tree) front' behind rest') :
    Stays (Alike (Enclosed Derives opening closing) (List.map meaning) trees)
      front behind rest := by
  have single : Inert [opening] := by simp_all [Inert]
  generalize same : front ++ behind = text at enclosed
  cases enclosed with
  | empty before =>
      obtain ⟨inner, rfl, rfl, kept⟩ := seam.of_letters single same
      obtain ⟨left, rfl, kept₁, moved⟩ := (seam.left kept).layout_sign before isClosing
      refine ⟨left, rfl, fun inCode => kept₁ (kept inCode), fun other starts => ?_⟩
      exact ⟨[], rfl, .empty (moved other starts)⟩
  | filled before items gap =>
      obtain ⟨inner, rfl, rfl, kept⟩ := seam.of_letters single same
      have bound := before.length_le
      have seam := seam.left kept
      obtain ⟨start, rfl, kept₁, moved⟩ := seam.layout_of_ne before (items.head_ne heads)
      have seam := seam.left kept₁
      have within : (start ++ behind).length < (opening :: inner ++ behind).length := by
        rw [List.cons_append, List.length_cons]
        omega
      obtain ⟨stop, rfl, kept₂, moved'⟩ := seam.separated items heads shrinks fun shorter =>
        stays (Nat.lt_of_le_of_lt shorter within)
      have seam := seam.left kept₂
      obtain ⟨left, rfl, kept₃, moved''⟩ := seam.layout_sign gap isClosing
      refine ⟨left, rfl, fun inCode => kept₃ (kept₂ (kept₁ (kept inCode))),
        fun other starts => ?_⟩
      obtain ⟨trees', meant, items'⟩ := moved' other starts
      exact ⟨trees', meant, .filled (moved other starts) items' (moved'' other starts)⟩

end Sequences

/-! ## How phrases do not start -/

theorem Word.head?_ne_stop {text rest : List Char} {name : String} (word : Word text name rest) :
    text.head? ≠ some '.' := by
  intro head
  obtain ⟨behind, rfl⟩ := List.head?_eq_some_iff.mp head
  exact word.head_ne (by decide)

theorem DerivesArgument.head?_ne_stop {text rest : List Char} {tree : ArgumentTree}
    (derives : DerivesArgument text tree rest) : text.head? ≠ some '.' := by
  intro head
  obtain ⟨behind, rfl⟩ := List.head?_eq_some_iff.mp head
  exact derives.head_ne (by decide)

theorem DerivesLiteral.head?_ne_stop {text rest : List Char} {tree : LiteralTree}
    (derives : DerivesLiteral text tree rest) : text.head? ≠ some '.' := by
  intro head
  obtain ⟨c, behind, rfl, starts⟩ := derives.starts
  obtain rfl : c = '.' := Option.some.inj head
  rcases starts with starts | same
  · exact absurd starts (by decide)
  · exact absurd same (by decide)

theorem DerivesAtom.head?_ne_stop {text rest : List Char} {tree : AtomTree}
    (derives : DerivesAtom text tree rest) : text.head? ≠ some '.' := by
  obtain ⟨name, mark, word, -⟩ := derives.word
  exact word.head?_ne_stop

theorem DerivesBody.head?_ne_stop {text rest : List Char} {tree : BodyTree}
    (derives : DerivesBody text tree rest) : text.head? ≠ some '.' := by
  cases derives with
  | braced contents =>
      obtain ⟨inner, rfl⟩ := contents.opens
      exact fun head => absurd (Option.some.inj head) (by decide)
  | bare contents => exact contents.head?_ne_stop

/-! ## Arguments, atoms and literals -/

mutual
/-- **An argument stays in front of the seam.** -/
theorem Seam.argument {front behind rest : List Char} {tree : ArgumentTree}
    (seam : Seam front behind) (derives : DerivesArgument (front ++ behind) tree rest) :
    Stays (Alike DerivesArgument ArgumentTree.meaning tree) front behind rest := by
  generalize same : front ++ behind = text at derives
  cases derives with
  | untargeted word before gap contents =>
      subst same
      have first := word.length_lt
      have second := before.length_le
      have third := gap.length_le
      obtain ⟨mark, rfl, kept, word'⟩ := seam.word word
      have seam := seam.left kept
      obtain ⟨inner, rfl, kept₁, before'⟩ := seam.layout_sign before (by decide)
      have seam := seam.left kept₁
      obtain ⟨start, rfl, kept₂, gap'⟩ := seam.layout_of_ne gap contents.head?_ne_stop
      have seam := seam.left kept₂
      obtain ⟨left, rfl, kept₃, moved⟩ := seam.body contents
      refine ⟨left, rfl, fun inCode => kept₃ (kept₂ (kept₁ (kept inCode))),
        fun other starts => ?_⟩
      obtain ⟨body', meant, contents'⟩ := moved other starts
      refine ⟨.aggregate _ none body', ?_,
        .untargeted (word' other starts) (before' other starts) (gap' other starts) contents'⟩
      rw [ArgumentTree.meaning_untargeted, ArgumentTree.meaning_untargeted, meant]
  | targeted word front' reduced before gap contents =>
      subst same
      have first := word.length_lt
      have second := front'.length_le
      have third := reduced.length_lt
      have fourth := before.length_le
      have fifth := gap.length_le
      obtain ⟨mark, rfl, kept, word'⟩ := seam.word word
      have seam := seam.left kept
      obtain ⟨begins, rfl, kept₁, front''⟩ := seam.layout_of_ne front' reduced.head?_ne_stop
      have seam := seam.left kept₁
      obtain ⟨stop, rfl, kept₂, reduced'⟩ := seam.argument reduced
      have seam := seam.left kept₂
      obtain ⟨inner, rfl, kept₃, before'⟩ := seam.layout_sign before (by decide)
      have seam := seam.left kept₃
      obtain ⟨start, rfl, kept₄, gap'⟩ := seam.layout_of_ne gap contents.head?_ne_stop
      have seam := seam.left kept₄
      obtain ⟨left, rfl, kept₅, moved⟩ := seam.body contents
      refine ⟨left, rfl,
        fun inCode => kept₅ (kept₄ (kept₃ (kept₂ (kept₁ (kept inCode))))),
        fun other starts => ?_⟩
      obtain ⟨target', meant, reduced'⟩ := reduced' other starts
      obtain ⟨body', meant', contents'⟩ := moved other starts
      refine ⟨.aggregate _ (some target') body', ?_, .targeted (word' other starts)
        (front'' other starts) reduced' (before' other starts) (gap' other starts) contents'⟩
      rw [ArgumentTree.meaning_targeted, ArgumentTree.meaning_targeted, meant, meant']
  | nil word =>
      subst same
      obtain ⟨left, rfl, kept, word'⟩ := seam.word word
      exact ⟨left, rfl, kept, fun other starts => ⟨.nil, rfl, .nil (word' other starts)⟩⟩
  | counter =>
      obtain ⟨left, rfl, rfl, kept⟩ := @Seam.of_letters _ _ _ ['$'] seam (by decide) same
      exact ⟨left, rfl, kept, fun other _ => ⟨.counter, rfl, .counter⟩⟩
  | @number _ spelling _ digits =>
      subst same
      obtain ⟨left, rfl, kept, digits'⟩ := seam.number digits
      exact ⟨left, rfl, kept, fun other starts =>
        ⟨.number ⟨spelling, (front ++ other).length⟩, rfl, .number (digits' other starts)⟩⟩
  | @string _ interior _ isInterior spelled =>
      subst spelled
      obtain ⟨left, rfl, rfl, kept⟩ := seam.of_quote isInterior same
      exact ⟨left, rfl, kept, fun other _ => ⟨.string interior, rfl, .string isInterior (by simp)⟩⟩
  | unnamed word =>
      subst same
      obtain ⟨left, rfl, kept, word'⟩ := seam.word word
      exact ⟨left, rfl, kept, fun other starts => ⟨.unnamed, rfl, .unnamed (word' other starts)⟩⟩
  | @free _ _ name word unreserved named =>
      subst same
      obtain ⟨left, rfl, kept, word'⟩ := seam.word word
      exact ⟨left, rfl, kept, fun other starts =>
        ⟨.variable name, rfl, .free (word' other starts) unreserved named⟩⟩
termination_by 2 * (front ++ behind).length
decreasing_by all_goals (simp only [List.length_cons, List.length_append] at *; omega)

/-- The body of an aggregate stays in front of the seam. -/
theorem Seam.body {front behind rest : List Char} {tree : BodyTree} (seam : Seam front behind)
    (derives : DerivesBody (front ++ behind) tree rest) :
    Stays (Alike DerivesBody BodyTree.meaning tree) front behind rest := by
  cases derives with
  | braced contents =>
      obtain ⟨left, rfl, kept, moved⟩ := seam.enclosed contents (by decide) (by decide)
        (fun item => item.head?_ne_stop) (fun item => item.length_lt)
        fun shorter seam item => seam.literal item
      refine ⟨left, rfl, kept, fun other starts => ?_⟩
      obtain ⟨literals', meant, contents'⟩ := moved other starts
      refine ⟨.braced literals', ?_, .braced contents'⟩
      rw [BodyTree.meaning_braced, BodyTree.meaning_braced, meant]
  | bare contents =>
      obtain ⟨left, rfl, kept, moved⟩ := seam.atom contents
      refine ⟨left, rfl, kept, fun other starts => ?_⟩
      obtain ⟨atom', meant, contents'⟩ := moved other starts
      refine ⟨.bare atom', ?_, .bare contents'⟩
      rw [BodyTree.meaning_bare, BodyTree.meaning_bare, meant]
termination_by 2 * (front ++ behind).length + 1
decreasing_by all_goals omega

/-- An atom stays in front of the seam. -/
theorem Seam.atom {front behind rest : List Char} {tree : AtomTree} (seam : Seam front behind)
    (derives : DerivesAtom (front ++ behind) tree rest) :
    Stays (Alike DerivesAtom AtomTree.meaning tree) front behind rest := by
  cases derives with
  | @applied _ _ _ _ name _ word before contents =>
      have first := word.length_lt
      have second := before.length_le
      obtain ⟨mark, rfl, kept, word'⟩ := seam.word word
      have seam := seam.left kept
      have opens : ∃ inner, _ = '(' :: inner := contents.opens
      obtain ⟨inner, rfl, kept₁, before'⟩ := seam.layout_of_ne before (by
        obtain ⟨inner, rfl⟩ := opens
        exact fun head => absurd (Option.some.inj head) (by decide))
      have seam := seam.left kept₁
      obtain ⟨left, rfl, kept₂, moved⟩ := seam.enclosed contents (by decide) (by decide)
        (fun item => item.head?_ne_stop) (fun item => item.length_lt)
        fun shorter seam item => seam.argument item
      refine ⟨left, rfl, fun inCode => kept₂ (kept₁ (kept inCode)), fun other starts => ?_⟩
      obtain ⟨arguments', meant, contents'⟩ := moved other starts
      refine ⟨.applied name arguments', ?_,
        .applied (word' other starts) (before' other starts) contents'⟩
      rw [AtomTree.meaning_applied, AtomTree.meaning_applied, meant]
termination_by 2 * (front ++ behind).length
decreasing_by all_goals omega

/-- **A literal stays in front of the seam.** -/
theorem Seam.literal {front behind rest : List Char} {tree : LiteralTree}
    (seam : Seam front behind) (derives : DerivesLiteral (front ++ behind) tree rest) :
    Stays (Alike DerivesLiteral LiteralTree.meaning tree) front behind rest := by
  generalize same : front ++ behind = text at derives
  cases derives with
  | negation gap contents =>
      obtain ⟨inner, rfl, rfl, kept⟩ := @Seam.of_letters _ _ _ ['!'] seam (by decide) same
      have first := gap.length_le
      have seam := seam.left kept
      obtain ⟨start, rfl, kept₁, gap'⟩ := seam.layout_of_ne gap contents.head?_ne_stop
      have seam := seam.left kept₁
      obtain ⟨left, rfl, kept₂, moved⟩ := seam.atom contents
      refine ⟨left, rfl, fun inCode => kept₂ (kept₁ (kept inCode)), fun other starts => ?_⟩
      obtain ⟨atom', meant, contents'⟩ := moved other starts
      refine ⟨.negation atom', ?_, .negation (gap' other starts) contents'⟩
      rw [LiteralTree.meaning_negation, LiteralTree.meaning_negation, meant]
  | atom contents =>
      subst same
      obtain ⟨left, rfl, kept, moved⟩ := seam.atom contents
      refine ⟨left, rfl, kept, fun other starts => ?_⟩
      obtain ⟨atom', meant, contents'⟩ := moved other starts
      refine ⟨.atom atom', ?_, .atom contents'⟩
      rw [LiteralTree.meaning_atom, LiteralTree.meaning_atom, meant]
  | comparison first before sign gap second =>
      subst same
      have firstShrinks := first.length_lt
      have beforeShrinks := before.length_le
      have signShrinks := sign.length_lt
      have gapShrinks := gap.length_le
      obtain ⟨stop, rfl, kept, first'⟩ := seam.argument first
      have seam := seam.left kept
      obtain ⟨mark, rfl, kept₁, before'⟩ := seam.layout_of_ne before (by
        obtain ⟨c, more, rfl, isOperator⟩ := sign.starts
        intro head
        rw [Option.some.inj head] at isOperator
        exact absurd isOperator (by decide))
      have seam := seam.left kept₁
      obtain ⟨inner, rfl, kept₂, sign'⟩ := seam.operator sign
      have seam := seam.left kept₂
      obtain ⟨start, rfl, kept₃, gap'⟩ := seam.layout_of_ne gap second.head?_ne_stop
      have seam := seam.left kept₃
      obtain ⟨left, rfl, kept₄, second'⟩ := seam.argument second
      refine ⟨left, rfl, fun inCode => kept₄ (kept₃ (kept₂ (kept₁ (kept inCode)))),
        fun other starts => ?_⟩
      obtain ⟨left', meant, first'⟩ := first' other starts
      obtain ⟨right', meant', second'⟩ := second' other starts
      refine ⟨.comparison left' _ right', ?_,
        .comparison first' (before' other starts) (sign' other starts) (gap' other starts) second'⟩
      rw [LiteralTree.meaning_comparison, LiteralTree.meaning_comparison, meant, meant']
  | @truth _ _ value word =>
      subst same
      obtain ⟨left, rfl, kept, word'⟩ := seam.word word
      exact ⟨left, rfl, kept, fun other starts => ⟨.truth value, rfl, .truth (word' other starts)⟩⟩
termination_by 2 * (front ++ behind).length + 1
decreasing_by all_goals (subst_vars; simp only [List.length_cons, List.length_append] at *; omega)
end

end Datalog.Grammar
