import Datalog.Proofs.Grammar.Unambiguity
import Datalog.Proofs.Seam.Phrase

/-!
# Statements in front of a seam

A declaration stays in front of a seam, provided that no parenthesis is put behind a
word that asks for a representation.  A clause stays there too, or else it is all but
finished in front of the seam and takes the full stop of the line behind it
(`Seam.statement`).
-/

set_option autoImplicit false

namespace Datalog.Grammar

/-! ## Meanings of statements -/

/-- The clause that a tree stands for, with integers in place of numerals. -/
def ClauseTree.meaning (tree : ClauseTree) : Clause Int String :=
  tree.spelled.map Numeral.value id

/-- What a statement says, apart from the places of its numerals. -/
def Statement.meaning : Statement → Declaration ⊕ Clause Int String
  | .declaration declared => .inl declared
  | .clause spelled => .inr (spelled.map Numeral.value id)

/-- What the statement says that a tree stands for. -/
def StatementTree.meaning (tree : StatementTree) : Declaration ⊕ Clause Int String :=
  tree.spelled.meaning

/-! ## Clauses up to their full stops -/

theorem ClauseTree.meaning_mk (head : AtomTree) (body : List LiteralTree) :
    (ClauseTree.mk head body).meaning = ⟨head.meaning, body.map LiteralTree.meaning⟩ :=
  ClauseTree.map_spelled _

/-- A clause as far as the layout in front of its full stop. -/
inductive DerivesUnstopped : List Char → ClauseTree → List Char → Prop
  | fact {text stop : List Char} {head : AtomTree} (first : DerivesAtom text head stop) :
      DerivesUnstopped text ⟨head, []⟩ stop
  | rule {text mark inner start stop : List Char} {head : AtomTree} {body : List LiteralTree}
      (first : DerivesAtom text head mark) (before : Layout mark (':' :: '-' :: inner))
      (inside : Layout inner start) (contents : Separated DerivesLiteral start body stop) :
      DerivesUnstopped text ⟨head, body⟩ stop

/-- A clause is what stands in front of its full stop, and the full stop. -/
theorem derivesClause_iff {text rest : List Char} {tree : ClauseTree} :
    DerivesClause text tree rest ↔
      ∃ stop, DerivesUnstopped text tree stop ∧ Layout stop ('.' :: rest) := by
  constructor
  · intro derives
    cases derives with
    | fact first gap => exact ⟨_, .fact first, gap⟩
    | rule first before inside contents gap =>
        exact ⟨_, .rule first before inside contents, gap⟩
  · rintro ⟨stop, unstopped, gap⟩
    cases unstopped with
    | fact first => exact .fact first gap
    | rule first before inside contents => exact .rule first before inside contents gap

theorem DerivesAttribute.head?_ne_stop {text rest : List Char} {column : Attribute}
    (derives : DerivesAttribute text column rest) : text.head? ≠ some '.' := by
  cases derives with
  | typed word => exact word.head?_ne_stop

namespace Seam

variable {front behind rest : List Char}

/-! ## Clauses -/

/-- A full stop comes next in front of the seam or right behind it. -/
theorem stop (seam : Seam front behind) (layout : Layout (front ++ behind) ('.' :: rest)) :
    Stays (fun text left => Layout text ('.' :: left)) front behind rest ∨
      behind = '\n' :: '.' :: rest ∧
        ∀ more, Layout (front ++ '\n' :: '.' :: more) ('.' :: more) := by
  have passed {more : List Char}
      (moved : ∀ other, StartsLine other → Layout (front ++ other) other) :
      Layout (front ++ '\n' :: '.' :: more) ('.' :: more) := by
    have feeds : StartsLine ('\n' :: '.' :: more) := by simp [StartsLine, endsLine]
    exact (moved _ feeds).trans (.blank (by decide) (.nothing _))
  rcases seam.layout layout with ⟨left, same, kept, moved⟩ | ⟨more, rfl, same, moved⟩
  · have seam := seam.left kept
    obtain ⟨left', rfl, rfl, kept₁⟩ := @Seam.of_letters _ _ _ ['.'] seam (by decide) same.symm
    exact .inl ⟨left', rfl, fun inCode => kept₁ (kept inCode), moved⟩
  · obtain ⟨-, rfl⟩ := List.cons.inj same
    exact .inr ⟨rfl, fun more => passed moved⟩

/-- What stands in front of the full stop of a clause stays in front of the seam. -/
theorem unstopped {tree : ClauseTree} (seam : Seam front behind)
    (derives : DerivesUnstopped (front ++ behind) tree rest) :
    Stays (Alike DerivesUnstopped ClauseTree.meaning tree) front behind rest := by
  cases derives with
  | fact first =>
      obtain ⟨left, rfl, kept, first'⟩ := seam.atom first
      refine ⟨left, rfl, kept, fun other starts => ?_⟩
      obtain ⟨head', meant, first'⟩ := first' other starts
      exact ⟨⟨head', []⟩, by rw [ClauseTree.meaning_mk, ClauseTree.meaning_mk, meant],
        .fact first'⟩
  | rule first before inside contents =>
      obtain ⟨mark, rfl, kept, first'⟩ := seam.atom first
      have seam := seam.left kept
      obtain ⟨dash, same, kept₁, before'⟩ := seam.layout_sign before (by decide)
      have seam := seam.left kept₁
      obtain ⟨inner, rfl, rfl, kept₂⟩ := @Seam.of_letters _ _ _ ['-'] seam (by decide) same.symm
      have seam := seam.left kept₂
      obtain ⟨start, rfl, kept₃, inside'⟩ :=
        seam.layout_of_ne inside (contents.head_ne fun item => item.head?_ne_stop)
      have seam := seam.left kept₃
      obtain ⟨left, rfl, kept₄, contents'⟩ := seam.separated contents
        (fun item => item.head?_ne_stop) (fun item => item.length_lt)
        fun _ seam item => seam.literal item
      refine ⟨left, rfl, fun inCode => kept₄ (kept₃ (kept₂ (kept₁ (kept inCode)))),
        fun other starts => ?_⟩
      obtain ⟨head', meant, first'⟩ := first' other starts
      obtain ⟨body', meant', contents'⟩ := contents' other starts
      exact ⟨⟨head', body'⟩, by rw [ClauseTree.meaning_mk, ClauseTree.meaning_mk, meant, meant'],
        .rule first' (before' other starts) (inside' other starts) contents'⟩

/-- **A clause stays in front of the seam or takes the full stop behind it.** -/
theorem clause {tree : ClauseTree} (seam : Seam front behind)
    (derives : DerivesClause (front ++ behind) tree rest) :
    Stays (Alike DerivesClause ClauseTree.meaning tree) front behind rest ∨
      behind = '\n' :: '.' :: rest ∧
        ∀ more,
          Alike DerivesClause ClauseTree.meaning tree (front ++ '\n' :: '.' :: more) more := by
  obtain ⟨mark, contents, gap⟩ := derivesClause_iff.mp derives
  obtain ⟨last, rfl, kept, contents'⟩ := seam.unstopped contents
  have seam := seam.left kept
  rcases seam.stop gap with ⟨left, rfl, kept₁, gap'⟩ | ⟨rfl, gap'⟩
  · refine .inl ⟨left, rfl, fun inCode => kept₁ (kept inCode), fun other starts => ?_⟩
    obtain ⟨tree', meant, contents'⟩ := contents' other starts
    exact ⟨tree', meant, derivesClause_iff.mpr ⟨_, contents', gap' other starts⟩⟩
  · refine .inr ⟨rfl, fun more => ?_⟩
    obtain ⟨tree', meant, contents'⟩ := contents' ('\n' :: '.' :: more)
      (by simp [StartsLine, endsLine])
    exact ⟨tree', meant, derivesClause_iff.mpr ⟨_, contents', gap' more⟩⟩

/-! ## Declarations -/

theorem column {column : Attribute} (seam : Seam front behind)
    (derives : DerivesAttribute (front ++ behind) column rest) :
    Stays (Alike DerivesAttribute id column) front behind rest := by
  cases derives with
  | typed word before gap second =>
      obtain ⟨mark, rfl, kept, word'⟩ := seam.word word
      have seam := seam.left kept
      obtain ⟨inner, rfl, kept₁, before'⟩ := seam.layout_sign before (by decide)
      have seam := seam.left kept₁
      obtain ⟨start, rfl, kept₂, gap'⟩ := seam.layout_of_ne gap second.head?_ne_stop
      have seam := seam.left kept₂
      obtain ⟨left, rfl, kept₃, second'⟩ := seam.word second
      exact ⟨left, rfl, fun inCode => kept₃ (kept₂ (kept₁ (kept inCode))),
        fun other starts => ⟨_, rfl, .typed (word' other starts) (before' other starts)
          (gap' other starts) (second' other starts)⟩⟩

theorem signature {names : List String} {attributes : List Attribute} (seam : Seam front behind)
    (derives : DerivesSignature (front ++ behind) names attributes rest) :
    Stays (fun text left => DerivesSignature text names attributes left) front behind rest := by
  generalize same : front ++ behind = text at derives
  cases derives with
  | declared keyword ends inside listed before contents =>
      subst keyword
      obtain ⟨mark, rfl, rfl, kept⟩ := seam.of_letters (by decide) same
      have seam := seam.left kept
      obtain ⟨start, rfl, kept₁, inside'⟩ :=
        seam.layout_of_ne inside (listed.head_ne fun word => word.head?_ne_stop)
      have seam := seam.left kept₁
      obtain ⟨stop, rfl, kept₂, listed'⟩ := @Seam.separated _ _ _ id _ _ _ _ seam listed
        (fun word => word.head?_ne_stop) (fun word => word.length_lt) fun _ seam word => by
          obtain ⟨left, rfl, kept, word'⟩ := seam.word word
          exact ⟨left, rfl, kept, fun other starts => ⟨_, rfl, word' other starts⟩⟩
      have seam := seam.left kept₂
      obtain ⟨inner, rfl, kept₃, before'⟩ := seam.layout_of_ne before (by
        obtain ⟨inner, rfl⟩ := contents.opens
        exact fun head => absurd (Option.some.inj head) (by decide))
      have seam := seam.left kept₃
      obtain ⟨left, rfl, kept₄, contents'⟩ := seam.enclosed contents (by decide) (by decide)
        (fun column => column.head?_ne_stop) (fun column => column.length_lt)
        fun _ seam column => seam.column column
      refine ⟨left, rfl, fun inCode => kept₄ (kept₃ (kept₂ (kept₁ (kept inCode)))),
        fun other starts => ?_⟩
      obtain ⟨names', sameNames, listed''⟩ := listed' other starts
      obtain ⟨attributes', sameAttributes, contents''⟩ := contents' other starts
      rw [List.map_id, List.map_id] at sameNames sameAttributes
      subst sameNames
      subst sameAttributes
      exact .declared (List.append_assoc _ _ _) (beginsInName_of_startsLine ends starts)
        (inside' other starts) listed'' (before' other starts) contents''

/-- A parenthesis that comes next does so whatever line stands behind the seam. -/
theorem opens (seam : Seam front behind) (opens : Opens (front ++ behind)) {other : List Char}
    (starts : StartsLine other) : Opens (front ++ other) := by
  obtain ⟨inner, layout⟩ := opens
  obtain ⟨left, rfl, -, moved⟩ := seam.layout_sign layout (by decide)
  exact ⟨_, moved other starts⟩

theorem declaration {tree : DeclarationTree} (seam : Seam front behind)
    (derives : DerivesDeclaration (front ++ behind) tree rest) :
    ∃ left, rest = left ++ behind ∧ (InCode front → InCode left) ∧
      ∀ other, StartsLine other → (Opens (left ++ other) → Opens (left ++ behind)) →
        DerivesDeclaration (front ++ other) tree (left ++ other) := by
  cases derives with
  | unqualified declared =>
      obtain ⟨left, rfl, kept, moved⟩ := seam.signature declared
      exact ⟨left, rfl, kept, fun other starts _ => .unqualified (moved other starts)⟩
  | qualified declared before qualifier =>
      obtain ⟨stop, rfl, kept, declared'⟩ := seam.signature declared
      have seam := seam.left kept
      obtain ⟨⟨asked, known, word⟩, unapplied⟩ := qualifier
      obtain ⟨start, rfl, kept₁, before'⟩ := seam.layout_of_ne before word.head?_ne_stop
      have seam := seam.left kept₁
      obtain ⟨left, rfl, kept₂, word'⟩ := seam.word word
      refine ⟨left, rfl, fun inCode => kept₂ (kept₁ (kept inCode)),
        fun other starts applied => ?_⟩
      exact .qualified (declared' other starts) (before' other starts)
        ⟨⟨asked, known, word' other starts⟩, mt applied unapplied⟩

/-! ## Statements -/

/-- **A statement stays in front of the seam, or it is a clause that takes the full
stop behind it.** -/
theorem statement {tree : StatementTree} (seam : Seam front behind)
    (derives : DerivesStatement (front ++ behind) tree rest) :
    (∃ left, rest = left ++ behind ∧ (InCode front → InCode left) ∧
      ∀ other, StartsLine other → (Opens (left ++ other) → Opens (left ++ behind)) →
        ∃ tree', tree'.meaning = tree.meaning ∧ tree'.Complete = tree.Complete ∧
          DerivesStatement (front ++ other) tree' (left ++ other)) ∨
    behind = '\n' :: '.' :: rest ∧ ∃ clause, tree = .clause clause ∧ ∀ more,
      Alike DerivesClause ClauseTree.meaning clause (front ++ '\n' :: '.' :: more) more := by
  cases derives with
  | declaration contents =>
      obtain ⟨left, rfl, kept, moved⟩ := seam.declaration contents
      exact .inl ⟨left, rfl, kept, fun other starts applied =>
        ⟨_, rfl, rfl, .declaration (moved other starts applied)⟩⟩
  | clause contents =>
      rcases seam.clause contents with ⟨left, rfl, kept, moved⟩ | ⟨rfl, moved⟩
      · refine .inl ⟨left, rfl, kept, fun other starts _ => ?_⟩
        obtain ⟨tree', meant, contents'⟩ := moved other starts
        exact ⟨.clause tree', congrArg Sum.inr meant, rfl, .clause contents'⟩
      · exact .inr ⟨rfl, _, rfl, moved⟩

end Seam

end Datalog.Grammar
