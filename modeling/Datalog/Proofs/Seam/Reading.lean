import Datalog.Proofs.Printer.Program
import Datalog.Proofs.Seam.Statement
import Datalog.Proofs.Segment.Progress

/-!
# Reading in front of a seam

In front of a seam the same statement is read whether nothing stands behind the seam or
a line that starts with a full stop does, unless a clause takes that full stop
(`InCode.read`).  What is passed over as malformed ends in front of the seam, or all of
the text in front of the seam is passed over; and then it is seen that something has
been passed, unless it was faint (`InCode.recovers`).
-/

set_option autoImplicit false

namespace Datalog

open Grammar

namespace Grammar

/-! ## What stands behind a seam -/

/-- Nothing, or a line that starts with a full stop. -/
inductive Follows : List Char → Prop
  | nothing : Follows []
  | line (more : List Char) : Follows ('\n' :: '.' :: more)

theorem Follows.startsLine {behind : List Char} (follows : Follows behind) : StartsLine behind := by
  cases follows <;> simp [StartsLine, endsLine]

theorem InCode.seam {front behind : List Char} (inCode : InCode front) (follows : Follows behind) :
    Seam front behind := by
  cases follows with
  | nothing => exact .last front
  | line more => exact .next inCode more

/-! ## Layout -/

/-- Layout is layout in front of a line. -/
theorem Layout.append_line {text rest other : List Char} (layout : Layout text rest)
    (starts : StartsLine other) :
    (InCode text → InCode rest) ∧ Layout (text ++ other) (rest ++ other) := by
  rw [← List.append_nil text] at layout
  rcases (Seam.last text).layout layout with ⟨left, rfl, kept, moved⟩ | ⟨more, absurd, -⟩
  · rw [List.append_nil]
    exact ⟨kept, moved other starts⟩
  · cases absurd

/-- A text of layout is layout in front of a line. -/
theorem layout_of_skip_eq_nil {text other : List Char} (done : skip text = [])
    (starts : StartsLine other) : Layout (text ++ other) other := by
  have layout := ((layout_skip text).append_line starts).2
  rwa [done] at layout

namespace InCode

variable {front behind other : List Char}

/-- What opens no comment opens none in front of a line. -/
theorem append_ne_of_lone {rest : List Char} (lone : ∀ c ∈ rest.head?, c ∉ ['/', '*'])
    (starts : StartsLine other) (more : List Char) :
    rest ++ other ≠ '/' :: more ∧ rest ++ other ≠ '*' :: more := by
  cases rest with
  | cons c rest =>
      have single : c ∉ ['/', '*'] := lone c rfl
      simp_all
  | nil =>
      constructor <;>
        · rintro rfl
          exact absurd (starts _ rfl) (by decide)

/-- What is left behind layout is left there in front of a line, too. -/
theorem skip_append (inCode : InCode front) (more : skip front ≠ []) (starts : StartsLine other) :
    skip (front ++ other) = skip front ++ other := by
  obtain ⟨kept, layout⟩ := (layout_skip front).append_line starts
  have settled := skip_skip front
  have inCode := kept inCode
  rw [layout.skip_eq]
  generalize skip front = text at inCode more settled
  have shorter {rest : List Char} (less : rest.length < text.length)
      (same : skip text = skip rest) : False := by
    have bound := length_skip_le rest
    rw [← same, settled] at bound
    omega
  cases inCode with
  | nothing => exact absurd rfl more
  | @plain c rest isPlain behind =>
      by_cases isBlank : c ∈ [' ', '\t', '\n', '\r']
      · exact (shorter (by simp) (Layout.blank isBlank (.nothing rest)).skip_eq).elim
      · exact Solid.skip_eq ⟨c, rest ++ other, rfl, by simp_all⟩
  | slash lone behind =>
      have opensNone := append_ne_of_lone lone starts
      rw [List.cons_append, skip.eq_7]
      all_goals simp_all
  | string isInterior behind => exact Solid.skip_eq ⟨'"', _, rfl, by simp⟩
  | @line comment rest inLine lineEnd behind =>
      exact (shorter (by simp; omega) (Layout.line inLine lineEnd (.nothing rest)).skip_eq).elim
  | @block comment rest unclosed behind =>
      exact (shorter (by simp; omega) (Layout.block unclosed (.nothing rest)).skip_eq).elim

end InCode

/-! ## Statements -/

/-- What is read may end where it does. -/
theorem statement_settled {text rest : List Char} {stated : Statement}
    (read : statement.read text = some (stated, rest)) :
    ∃ tree stop, DerivesStatement text tree stop ∧ tree.Complete stop ∧ Layout stop rest ∧
      tree.spelled = stated := by
  obtain ⟨tree, stop, derives, layout, spelled⟩ := statement_sound read
  refine ⟨tree, stop, derives, ?_, layout, spelled⟩
  cases derives with
  | clause contents => trivial
  | declaration contents =>
      intro unasked start representation behind before qualifier
      cases contents with
      | qualified => cases unasked
      | unqualified signature =>
          -- the reader had taken the word that asks for a representation
          have longer := DerivesStatement.declaration (.qualified signature before qualifier)
          obtain ⟨stop', read', layout'⟩ := statement_complete longer (by rintro ⟨⟩)
          rw [read] at read'
          obtain ⟨-, rfl⟩ := Prod.mk.inj (Option.some.inj read')
          have first := before.skip_eq_of_solid qualifier.solid
          have second := qualifier.length_lt
          have third := layout'.length_le
          have fourth := length_skip_le rest
          rw [← layout.skip_eq, first] at fourth
          omega

namespace InCode

variable {front behind other : List Char}

/-- A parenthesis comes next in front of one line and of another alike. -/
theorem opens (inCode : InCode front) (follows : Follows behind) (follows' : Follows other)
    (opens : Opens (front ++ behind)) : Opens (front ++ other) :=
  (inCode.seam follows).opens opens follows'.startsLine

/-- What may end in front of one line may end in front of another. -/
theorem complete {tree : StatementTree} (inCode : InCode front) (follows : Follows behind)
    (follows' : Follows other) (complete : tree.Complete (front ++ behind)) :
    tree.Complete (front ++ other) := by
  cases tree with
  | clause => trivial
  | declaration tree =>
      intro unasked start representation stop layout qualifier
      obtain ⟨⟨asked, known, word⟩, unapplied⟩ := qualifier
      have seam := inCode.seam follows'
      obtain ⟨inner, rfl, kept, layout'⟩ := seam.layout_of_ne layout word.head?_ne_stop
      have inCode := kept inCode
      obtain ⟨left, rfl, kept₁, word'⟩ := (inCode.seam follows').word word
      have inCode := kept₁ inCode
      exact complete unasked _ _ _ (layout' behind follows.startsLine)
        ⟨⟨asked, known, word' behind follows.startsLine⟩,
          fun opens => unapplied (inCode.opens follows follows' opens)⟩

/-- **What is read in front of one line is read in front of another**, up to the same
place, unless it takes the full stop of the line. -/
theorem read {stated : Statement} {rest : List Char} (inCode : InCode front)
    (more : skip front ≠ []) (follows : Follows behind) (follows' : Follows other)
    (read : nextStatement.read (front ++ behind) = some (stated, rest)) :
    (∃ left stated' rest', InCode left ∧ stated'.meaning = stated.meaning ∧
      nextStatement.read (front ++ other) = some (stated', rest') ∧
      Layout (left ++ behind) rest ∧ Layout (left ++ other) rest') ∨
    ∃ tail, behind = '\n' :: '.' :: tail ∧ Layout tail rest ∧
      ∀ tail', ∃ spelled rest', Layout tail' rest' ∧
        nextStatement.read (front ++ '\n' :: '.' :: tail') = some (.clause spelled, rest') := by
  rw [read_nextStatement, inCode.skip_append more follows.startsLine] at read
  obtain ⟨tree, stop, derives, complete, layout, rfl⟩ := statement_settled read
  have inner : InCode (skip front) := ((layout_skip front).append_line follows.startsLine).1 inCode
  rcases (inner.seam follows).statement derives with
    ⟨left, rfl, kept, moved⟩ | ⟨rfl, clause, rfl, moved⟩
  · have inCode' := kept inner
    obtain ⟨tree', meant, same, derives'⟩ := moved other follows'.startsLine
      (inCode'.opens follows' follows)
    have complete' : tree'.Complete (left ++ other) :=
      same ▸ inCode'.complete follows follows' complete
    obtain ⟨rest', read', layout'⟩ := statement_complete derives' complete'
    refine .inl ⟨left, _, rest', inCode', meant, ?_, layout, layout'⟩
    rw [read_nextStatement, inCode.skip_append more follows'.startsLine, read']
  · refine .inr ⟨_, rfl, layout, fun tail' => ?_⟩
    obtain ⟨tree', -, derives'⟩ := moved tail'
    obtain ⟨rest', read', layout'⟩ := statement_complete (.clause derives') trivial
    refine ⟨tree'.spelled, rest', layout', ?_⟩
    rw [read_nextStatement, inCode.skip_append more (Follows.line tail').startsLine, read']
    rfl

end InCode

end Grammar

/-! ## Recovery -/

/-- Blanks of every kind and comments.  Some of these blanks are no layout. -/
inductive Faint : List Char → Prop
  | nothing : Faint []
  | blank {c : Char} {rest : List Char} (isBlank : Text.isBlank c = true) (behind : Faint rest) :
      Faint (c :: rest)
  | line {comment rest : List Char} (inLine : ∀ c ∈ comment, endsLine c = false)
      (lineEnd : StartsLine rest) (behind : Faint rest) : Faint ('/' :: '/' :: (comment ++ rest))
  | block {comment rest : List Char} (unclosed : ¬ ['*', '/'] <:+: comment)
      (behind : Faint rest) : Faint ('/' :: '*' :: (comment ++ '*' :: '/' :: rest))

namespace Faint

theorem cons_iff {c : Char} {rest : List Char} (other : c ≠ '/') :
    Faint (c :: rest) ↔ Text.isBlank c = true ∧ Faint rest := by
  constructor
  · intro faint
    cases faint with
    | blank isBlank behind => exact ⟨isBlank, behind⟩
    | line | block => exact absurd rfl other
  · rintro ⟨isBlank, behind⟩
    exact .blank isBlank behind

theorem not_slash {rest : List Char} (lone : ∀ c ∈ rest.head?, c ∉ ['/', '*']) :
    ¬ Faint ('/' :: rest) := by
  intro faint
  cases faint with
  | blank isBlank => exact absurd isBlank (by decide)
  | line => exact absurd (lone '/' rfl) (by simp)
  | block => exact absurd (lone '*' rfl) (by simp)

theorem line_iff {comment rest : List Char} (inLine : ∀ c ∈ comment, endsLine c = false)
    (lineEnd : StartsLine rest) : Faint ('/' :: '/' :: (comment ++ rest)) ↔ Faint rest := by
  refine ⟨fun faint => ?_, .line inLine lineEnd⟩
  generalize same : '/' :: '/' :: (comment ++ rest) = text at faint
  cases faint with
  | nothing | block => cases same
  | blank isBlank =>
      obtain ⟨rfl, -⟩ := List.cons.inj same
      exact absurd isBlank (by decide)
  | line inLine' lineEnd' behind =>
      have same := (List.cons.inj (List.cons.inj same).2).2
      obtain ⟨-, rfl⟩ := line_unique inLine inLine' lineEnd lineEnd' same
      exact behind

theorem block_iff {comment rest : List Char} (unclosed : ¬ ['*', '/'] <:+: comment) :
    Faint ('/' :: '*' :: (comment ++ '*' :: '/' :: rest)) ↔ Faint rest := by
  refine ⟨fun faint => ?_, .block unclosed⟩
  generalize same : '/' :: '*' :: (comment ++ '*' :: '/' :: rest) = text at faint
  cases faint with
  | nothing | line => cases same
  | blank isBlank =>
      obtain ⟨rfl, -⟩ := List.cons.inj same
      exact absurd isBlank (by decide)
  | block unclosed' behind =>
      have same := (List.cons.inj (List.cons.inj same).2).2
      obtain ⟨-, rfl⟩ := block_unique unclosed unclosed' same
      exact behind

end Faint

/-- Whether a text starts with letters is seen in front of a line. -/
theorem isPrefixOf_append_line {letters : List Char} (inLine : ∀ c ∈ letters, endsLine c = false)
    (text : List Char) {other : List Char} (starts : StartsLine other) :
    letters.isPrefixOf (text ++ other) = letters.isPrefixOf text := by
  induction letters generalizing text with
  | nil => rfl
  | cons c letters ih =>
      cases text with
      | cons d text =>
          rw [List.cons_append, List.isPrefixOf, List.isPrefixOf,
            ih fun e member => inLine e (List.mem_cons_of_mem _ member)]
      | nil =>
          cases other with
          | nil => rfl
          | cons d other =>
              have differs : c ≠ d := by
                rintro rfl
                exact Bool.false_ne_true
                  ((inLine c List.mem_cons_self).symm.trans (starts c rfl))
              simp [List.isPrefixOf, differs]

/-- Recovery ends in front of whatever line follows, or passes all of the text in front
of the line.  If it passes it, something has been seen that belongs to the statement,
unless all of the text is faint. -/
def Recovers (begun : Bool) (front : List Char) : Prop :=
  (∃ left, InCode left ∧ ∀ other, StartsLine other →
    Recovery.passCode begun (front ++ other) = left ++ other) ∨
  ∃ seen, (seen = false ↔ begun = false ∧ Faint front) ∧ ∀ other, StartsLine other →
    Recovery.passCode begun (front ++ other) = Recovery.passCode seen other

theorem Recovers.of_step {begun begun' : Bool} {front rest : List Char}
    (recovers : Recovers begun' rest)
    (step : ∀ other, StartsLine other →
      Recovery.passCode begun (front ++ other) = Recovery.passCode begun' (rest ++ other))
    (faint : begun' = false ∧ Faint rest ↔ begun = false ∧ Faint front) :
    Recovers begun front := by
  rcases recovers with ⟨left, inCode, ends⟩ | ⟨seen, whether, passes⟩
  · exact .inl ⟨left, inCode, fun other starts => (step other starts).trans (ends other starts)⟩
  · exact .inr ⟨seen, whether.trans faint,
      fun other starts => (step other starts).trans (passes other starts)⟩

/-- **Recovery ends in front of a seam or passes it.** -/
theorem Grammar.InCode.recovers {front : List Char} (inCode : InCode front) (begun : Bool) :
    Recovers begun front := by
  induction inCode generalizing begun with
  | nothing => exact .inr ⟨begun, by simp [Faint.nothing], fun other _ => rfl⟩
  | @plain c rest isPlain behind ih =>
      have other : c ≠ '/' := by simp_all
      by_cases stop : c = '.'
      · subst stop
        have keyword (line : List Char) (starts : StartsLine line) :
            "decl".toList.isPrefixOf (rest ++ line) = "decl".toList.isPrefixOf rest :=
          isPrefixOf_append_line (by simp [endsLine]) rest starts
        cases declares : "decl".toList.isPrefixOf rest with
        | false =>
            refine .inl ⟨rest, behind, fun line starts => ?_⟩
            exact Recovery.passCode_of_stop begun ((keyword line starts).trans declares)
        | true =>
            cases begun with
            | true =>
                refine .inl ⟨_, .plain isPlain behind, fun line starts => ?_⟩
                rw [List.cons_append, Recovery.passCode, keyword line starts, declares]
                rfl
            | false =>
                refine (ih true).of_step (fun line starts => ?_) ?_
                · rw [List.cons_append, Recovery.passCode, keyword line starts, declares]
                  rfl
                · rw [Faint.cons_iff other]
                  simp [show Text.isBlank '.' = false by decide]
      · have single : c ∉ ['.', '"', '/'] := by simp_all
        refine (ih (begun || !Text.isBlank c)).of_step
          (fun line _ => Recovery.passCode_of_single begun single _) ?_
        rw [Faint.cons_iff other]
        simp [and_assoc]
  | @slash rest lone behind ih =>
      refine (ih true).of_step (fun line starts => ?_) ?_
      · rw [List.cons_append, Recovery.passCode.eq_6]
        · simp [show Text.isBlank '/' = false by decide]
        · exact fun more _ same => (append_ne_of_lone lone starts more).1 same
        · exact fun more _ same => (append_ne_of_lone lone starts more).2 same
        · decide
        · decide
      · simp [Faint.not_slash lone]
  | @string interior rest isInterior behind ih =>
      refine (ih true).of_step (fun line starts => ?_) ?_
      · simp [Recovery.passCode, Recovery.passString_append isInterior]
      · rw [Faint.cons_iff (by decide)]
        simp [show Text.isBlank '"' = false by decide]
  | @line comment rest inLine lineEnd behind ih =>
      refine (ih begun).of_step (fun line starts => ?_) ?_
      · have ends := Seam.startsLine_append lineEnd starts
        simp [Recovery.passCode, Recovery.passLine_append begun inLine,
          Recovery.passLine_of_startsLine begun ends]
      · rw [Faint.line_iff inLine lineEnd]
  | @block comment rest unclosed behind ih =>
      refine (ih begun).of_step (fun line starts => ?_) ?_
      · simp [Recovery.passCode, Recovery.passBlock_append begun unclosed]
      · rw [Faint.block_iff unclosed]

end Datalog
