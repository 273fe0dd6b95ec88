import Datalog.Grammar.Layout

/-!
# Layout as a relation

`Layout text rest` says that `text` is some layout followed by `rest`.  The
relation is free to stop anywhere: a space may be taken as layout or left to what
follows.  Only comments are closed, since a comment is one element of the
language: one kind reaches to the end of its line, the other one to the first
star with a slash.

The reader is not free, and takes all the layout there is (`layout_skip`).  The
two agree wherever it matters, because no element of a phrase starts with a
character with which layout could start: in front of such a solid text, every
way to take the layout ends at the same place (`Layout.skip_eq_of_solid`).
-/

set_option autoImplicit false

namespace Datalog.Grammar

/-! ## The relation -/

/-- Whether a character ends a line. -/
def endsLine (c : Char) : Bool := c == '\n' || c == '\r'

/-- The text is layout followed by the rest. -/
inductive Layout : List Char → List Char → Prop
  | nothing (text : List Char) : Layout text text
  | blank {c : Char} {text rest : List Char} (isBlank : c ∈ [' ', '\t', '\n', '\r'])
      (behind : Layout text rest) : Layout (c :: text) rest
  /-- A comment reaches to the end of its line or of the text. -/
  | line {comment text rest : List Char} (inLine : ∀ c ∈ comment, endsLine c = false)
      (lineEnd : ∀ c ∈ text.head?, endsLine c = true) (behind : Layout text rest) :
      Layout ('/' :: '/' :: (comment ++ text)) rest
  /-- A comment reaches to the first mark that closes it. -/
  | block {comment text rest : List Char} (unclosed : ¬ ['*', '/'] <:+: comment)
      (behind : Layout text rest) :
      Layout ('/' :: '*' :: (comment ++ '*' :: '/' :: text)) rest

theorem Layout.trans {text middle rest : List Char} (first : Layout text middle)
    (second : Layout middle rest) : Layout text rest := by
  induction first with
  | nothing => exact second
  | blank isBlank _ ih => exact .blank isBlank (ih second)
  | line inLine lineEnd _ ih => exact .line inLine lineEnd (ih second)
  | block unclosed _ ih => exact .block unclosed (ih second)

theorem Layout.suffix {text rest : List Char} (layout : Layout text rest) : rest <:+ text := by
  induction layout with
  | nothing => exact List.suffix_rfl
  | blank _ _ ih => exact ih.trans (List.suffix_cons _ _)
  | line _ _ _ ih =>
      exact ((ih.trans (List.suffix_append _ _)).trans (List.suffix_cons _ _)).trans
        (List.suffix_cons _ _)
  | @block comment text rest _ _ ih =>
      refine ih.trans ⟨'/' :: '*' :: (comment ++ ['*', '/']), ?_⟩
      simp

theorem Layout.length_le {text rest : List Char} (layout : Layout text rest) :
    rest.length ≤ text.length :=
  layout.suffix.length_le

/-- More text behind a layout leaves it a layout, unless the layout was all there
was: its last line might go on. -/
theorem Layout.append {text rest : List Char} (layout : Layout text rest) (more : List Char)
    (proper : rest ≠ []) : Layout (text ++ more) (rest ++ more) := by
  induction layout with
  | nothing => exact .nothing _
  | blank isBlank _ ih => exact .blank isBlank (ih proper)
  | @line comment text rest inLine lineEnd behind ih =>
      have some : text ≠ [] := by
        rintro rfl
        exact proper (List.suffix_nil.mp behind.suffix)
      have headEnds : ∀ c ∈ (text ++ more).head?, endsLine c = true := by
        cases text with
        | nil => exact absurd rfl some
        | cons c text => exact lineEnd
      have longer := Layout.line inLine headEnds (ih proper)
      simpa using longer
  | @block comment text rest unclosed _ ih =>
      have longer := Layout.block unclosed (ih proper)
      simpa using longer

/-! ## The reader takes all the layout there is -/

/-- A comment to the end of its line, as the reader passes it. -/
theorem skipLine_append {comment : List Char} (inLine : ∀ c ∈ comment, endsLine c = false)
    (text : List Char) : skipLine (comment ++ text) = skipLine text := by
  induction comment with
  | nil => rfl
  | cons c comment ih =>
      have own : c ≠ '\n' ∧ c ≠ '\r' := by simpa [endsLine] using inLine c (by simp)
      rw [List.cons_append, skipLine.eq_4 _ _ own.1 own.2]
      exact ih fun d member => inLine d (by simp [member])

theorem skipLine_of_lineEnd {text : List Char} (lineEnd : ∀ c ∈ text.head?, endsLine c = true) :
    skipLine text = skip text := by
  cases text with
  | nil => simp [skipLine, skip]
  | cons c text =>
      have own : c = '\n' ∨ c = '\r' := by simpa [endsLine] using lineEnd c (by simp)
      rcases own with rfl | rfl <;> simp [skipLine, skip]

/-- A comment that has to be closed, as the reader passes it. -/
theorem skipBlock_append {comment : List Char} (unclosed : ¬ ['*', '/'] <:+: comment)
    (text : List Char) : skipBlock (comment ++ '*' :: '/' :: text) = some (skip text) := by
  induction comment with
  | nil => rfl
  | cons c comment ih =>
      have further : ¬ ['*', '/'] <:+: comment := fun inside =>
        unclosed (inside.trans (List.suffix_cons c comment).isInfix)
      rw [List.cons_append, skipBlock.eq_3]
      · exact ih further
      · intro rest isStar starts
        cases comment with
        | nil => cases starts
        | cons d comment =>
            obtain ⟨rfl, -⟩ := List.cons.inj starts
            exact unclosed ⟨[], comment, by simp [isStar]⟩

/-- Every way to take layout leads the reader to the same place. -/
theorem Layout.skip_eq {text rest : List Char} (layout : Layout text rest) :
    skip text = skip rest := by
  induction layout with
  | nothing => rfl
  | @blank c text rest isBlank _ ih =>
      rw [← ih]
      simp only [List.mem_cons, List.not_mem_nil, or_false] at isBlank
      rcases isBlank with rfl | rfl | rfl | rfl <;> simp [skip]
  | @line comment text rest inLine lineEnd _ ih =>
      rw [skip, skipLine_append inLine, skipLine_of_lineEnd lineEnd, ih]
  | @block comment text rest unclosed _ ih =>
      rw [skip, skipBlock_append unclosed]
      exact ih

mutual
/-- **The reader takes layout.** -/
theorem layout_skip : ∀ text : List Char, Layout text (skip text)
  | [] => by
      simp only [skip]
      exact .nothing []
  | c :: text => by
      unfold skip
      split
      next heq => cases heq; exact .blank (by simp) (layout_skip _)
      next heq => cases heq; exact .blank (by simp) (layout_skip _)
      next heq => cases heq; exact .blank (by simp) (layout_skip _)
      next heq => cases heq; exact .blank (by simp) (layout_skip _)
      next rest heq =>
        cases heq
        obtain ⟨comment, behind, rfl, inLine, lineEnd, layout⟩ := layout_skipLine rest
        exact .line inLine lineEnd layout
      next rest heq =>
        cases heq
        split
        next left closed =>
          obtain ⟨comment, behind, rfl, unclosed, layout⟩ := layout_skipBlock rest left closed
          exact .block unclosed layout
        next => exact .nothing _
      next => exact .nothing _

/-- What the reader passes of a line is a comment to its end and layout. -/
theorem layout_skipLine : ∀ text : List Char, ∃ comment behind, text = comment ++ behind ∧
    (∀ c ∈ comment, endsLine c = false) ∧ (∀ c ∈ behind.head?, endsLine c = true) ∧
    Layout behind (skipLine text)
  | [] => ⟨[], [], by simp [skipLine, Layout.nothing]⟩
  | c :: text => by
      unfold skipLine
      split
      next heq => cases heq
      next rest heq =>
        cases heq
        exact ⟨[], '\n' :: text, by simp, by simp, by simp [endsLine],
          .blank (by simp) (layout_skip _)⟩
      next rest heq =>
        cases heq
        exact ⟨[], '\r' :: text, by simp, by simp, by simp [endsLine],
          .blank (by simp) (layout_skip _)⟩
      next rest notFeed notReturn heq =>
        cases heq
        obtain ⟨comment, behind, same, inLine, lineEnd, layout⟩ := layout_skipLine text
        refine ⟨c :: comment, behind, by rw [same, List.cons_append], ?_, lineEnd, layout⟩
        intro d member
        rcases List.mem_cons.mp member with rfl | member
        · simp [endsLine, show d ≠ '\n' from notFeed, show d ≠ '\r' from notReturn]
        · exact inLine d member

/-- What the reader passes of a closed comment is the comment and layout. -/
theorem layout_skipBlock : ∀ text left : List Char, skipBlock text = some left →
    ∃ comment behind, text = comment ++ '*' :: '/' :: behind ∧ ¬ ['*', '/'] <:+: comment ∧
      Layout behind left
  | [], left, closed => by simp [skipBlock] at closed
  | c :: text, left, closed => by
      unfold skipBlock at closed
      split at closed
      next heq => cases heq
      next rest heq =>
        cases heq
        cases closed
        exact ⟨[], _, rfl, by simp [List.infix_nil], layout_skip _⟩
      next rest notClosed heq =>
        cases heq
        obtain ⟨comment, behind, same, unclosed, layout⟩ := layout_skipBlock text left closed
        refine ⟨c :: comment, behind, by rw [same, List.cons_append], ?_, layout⟩
        -- the mark cannot start at the first character, or the reader had stopped there
        intro inside
        rcases List.infix_cons_iff.mp inside with ⟨more, starts⟩ | inside
        · obtain ⟨isStar, starts⟩ := List.cons.inj starts
          refine notClosed (more ++ '*' :: '/' :: behind) isStar.symm ?_
          rw [same, ← starts]
          rfl
        · exact unclosed inside
end

/-! ## Solid texts -/

/-- A text that starts with a character with which no layout starts. -/
def Solid (text : List Char) : Prop :=
  ∃ c rest, text = c :: rest ∧ c ∉ [' ', '\t', '\n', '\r', '/']

theorem Solid.skip_eq {text : List Char} (solid : Solid text) : skip text = text := by
  obtain ⟨c, rest, rfl, kind⟩ := solid
  simp only [List.mem_cons, List.not_mem_nil, or_false, not_or] at kind
  obtain ⟨notSpace, notTab, notFeed, notReturn, notSlash⟩ := kind
  rw [skip.eq_7] <;> simp_all

theorem Layout.skip_eq_of_solid {text rest : List Char} (layout : Layout text rest)
    (solid : Solid rest) : skip text = rest :=
  layout.skip_eq.trans solid.skip_eq

/-- **Layout ends at one place in front of solid texts.** -/
theorem Layout.unique {text rest rest' : List Char} (layout : Layout text rest)
    (layout' : Layout text rest') (solid : Solid rest) (solid' : Solid rest') : rest = rest' :=
  (layout.skip_eq_of_solid solid).symm.trans (layout'.skip_eq_of_solid solid')

theorem skip_skip (text : List Char) : skip (skip text) = skip text :=
  (layout_skip text).skip_eq.symm

end Datalog.Grammar
