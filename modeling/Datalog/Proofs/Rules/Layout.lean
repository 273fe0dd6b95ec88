import Datalog.Proofs.Rules.Lexical

/-!
# Layout between elements

The layout of the grammar is blanks and comments with blanks behind each of them, as many as
there are.  What is left behind it is what the reader of layout leaves (`answers_layout`).
-/

set_option autoImplicit false

namespace Datalog.Grammar

variable {code : List Char}

/-! ## Blanks -/

/-- The characters that are layout by themselves. -/
def blanks : List Char := [' ', '\t', '\n', '\r']

theorem answers_newline (text : List Char) :
    Answers code .newline text (("\n".toList.isPrefixOf? text).or
      (("\r\n".toList.isPrefixOf? text).or ("\r".toList.isPrefixOf? text))) :=
  (answers_sign _ text).either ((answers_sign _ text).either (answers_sign _ text))

theorem answers_blank (text : List Char) :
    Answers code (.rule .blank) text ((" ".toList.isPrefixOf? text).or
      (("\t".toList.isPrefixOf? text).or (("\n".toList.isPrefixOf? text).or
        (("\r\n".toList.isPrefixOf? text).or ("\r".toList.isPrefixOf? text))))) :=
  .rule .blank ((answers_sign _ text).either ((answers_sign _ text).either (answers_newline text)))

/-- A return with a line feed behind it is taken as one line end. -/
theorem exists_blanks (code text : List Char) : ∃ rest,
    Answers code (.more (.rule .blank)) text (some rest) ∧ Layout text rest ∧
      ∀ c ∈ rest.head?, c ∉ blanks := by
  by_cases lineEnd : ∃ behind, text = '\r' :: '\n' :: behind
  · obtain ⟨behind, rfl⟩ := lineEnd
    obtain ⟨rest, answers, layout, starts⟩ := exists_blanks code behind
    refine ⟨rest, .more ?_ answers, .blank (by simp) (.blank (by simp) layout), starts⟩
    have answers : Answers code (.rule .blank) ('\r' :: '\n' :: behind) _ := answers_blank _
    simpa [List.isPrefixOf?] using answers
  have alone (behind : List Char) (same : text = '\r' :: behind) :
      ['\n'].isPrefixOf? behind = none := by
    refine (isPrefixOf?_eq_none_iff _ _).mpr fun rest starts => ?_
    exact lineEnd ⟨rest, by rw [same, starts]; rfl⟩
  cases text with
  | nil => exact ⟨[], .last (answers_blank []), .nothing [], by simp⟩
  | cons c behind =>
      have answers : Answers code (.rule .blank) (c :: behind) _ := answers_blank _
      by_cases isBlank : c ∈ blanks
      · obtain ⟨rest, others, layout, starts⟩ := exists_blanks code behind
        refine ⟨rest, .more ?_ others, .blank isBlank layout, starts⟩
        simp only [blanks, List.mem_cons, List.not_mem_nil, or_false] at isBlank
        rcases isBlank with rfl | rfl | rfl | rfl
        · simpa [List.isPrefixOf?] using answers
        · simpa [List.isPrefixOf?] using answers
        · simpa [List.isPrefixOf?] using answers
        · simpa [List.isPrefixOf?, alone behind rfl] using answers
      · refine ⟨c :: behind, .last ?_, .nothing _, by simpa using isBlank⟩
        obtain ⟨space, tab, feed, back⟩ : ' ' ≠ c ∧ '\t' ≠ c ∧ '\n' ≠ c ∧ '\r' ≠ c := by
          simpa [blanks, eq_comm] using isBlank
        simpa [List.isPrefixOf?, space, tab, feed, back] using answers
termination_by text.length

/-! ## Comments -/

/-- A character of a line. -/
theorem answers_inLine (c : Char) (rest : List Char) :
    Answers code (.absent .newline >> .anything) (c :: rest)
      (if !endsLine c then some rest else none) := by
  have lineEnd : Answers code .newline (c :: rest) _ := answers_newline _
  cases ends : endsLine c with
  | true =>
      obtain ⟨left, found⟩ : ∃ left, Answers code .newline (c :: rest) (some left) := by
        have own : c = '\n' ∨ c = '\r' := by simpa [endsLine] using ends
        rcases own with rfl | rfl
        · exact ⟨rest, by simpa [List.isPrefixOf?] using lineEnd⟩
        · cases follows : ['\n'].isPrefixOf? rest with
          | none => exact ⟨rest, by simpa [List.isPrefixOf?, follows] using lineEnd⟩
          | some left => exact ⟨left, by simpa [List.isPrefixOf?, follows] using lineEnd⟩
      exact found.present.noFirst
  | false =>
      have own : c ≠ '\n' ∧ c ≠ '\r' := by simpa [endsLine] using ends
      have none : Answers code .newline (c :: rest) none := by
        simpa [List.isPrefixOf?, own.1.symm, own.2.symm] using lineEnd
      exact none.absent.both (answers_anything c rest)

/-- A character that is not the start of the mark that closes a comment. -/
theorem answers_unclosed {c : Char} {rest : List Char}
    (other : ∀ behind, c :: rest ≠ '*' :: '/' :: behind) :
    Answers code (.absent (.sign "*/") >> .anything) (c :: rest) (some rest) := by
  have mark : Answers code (.sign "*/") (c :: rest) none := .noSign other
  exact mark.absent.both (answers_anything c rest)

/-- A comment reaches to the first mark that closes it. -/
theorem answers_upTo_closing {comment : List Char} (unclosed : ¬ ['*', '/'] <:+: comment)
    (behind : List Char) :
    Answers code (.more (.absent (.sign "*/") >> .anything)) (comment ++ '*' :: '/' :: behind)
      (some ('*' :: '/' :: behind)) := by
  induction comment with
  | nil =>
      have mark : Answers code (.sign "*/") ('*' :: '/' :: behind) (some behind) := .sign rfl
      exact .last mark.present.noFirst
  | cons c comment ih =>
      have further : ¬ ['*', '/'] <:+: comment := fun inside =>
        unclosed (inside.trans (List.suffix_cons c comment).isInfix)
      refine .more (answers_unclosed fun rest starts => ?_) (ih further)
      -- the mark would stand inside the comment, or the comment would end with its star
      cases comment with
      | nil => simp at starts
      | cons d comment =>
          simp only [List.cons.injEq] at starts
          obtain ⟨rfl, rfl, -⟩ := starts
          exact unclosed ⟨[], comment, rfl⟩

/-- A comment that is not closed reaches to the end of the text. -/
theorem answers_upTo_end {text : List Char} (unclosed : skipBlock text = none) :
    Answers code (.more (.absent (.sign "*/") >> .anything)) text (some []) := by
  induction text with
  | nil =>
      have mark : Answers code (.sign "*/") [] none := .noSign fun rest => by simp
      exact .last (mark.absent.both (answers_character_nil _))
  | cons c text ih =>
      have other (behind : List Char) : c :: text ≠ '*' :: '/' :: behind := by
        intro starts
        rw [starts, skipBlock] at unclosed
        cases unclosed
      refine .more (answers_unclosed other) (ih ?_)
      rwa [skipBlock.eq_3] at unclosed
      rintro behind rfl rfl
      exact other behind rfl

/-- A comment that starts with two slashes reaches to the end of its line. -/
theorem exists_lineComment (code behind : List Char) : ∃ rest,
    Answers code (.rule .comment) ('/' :: '/' :: behind) (some rest) ∧
      Layout ('/' :: '/' :: behind) rest ∧ rest.length < ('/' :: '/' :: behind).length := by
  have mark : Answers code (.sign "//") ('/' :: '/' :: behind) (some behind) := .sign rfl
  have ends : Answers code (.absent .newline >> .anything) [] none :=
    (answers_newline []).absent.both (answers_character_nil _)
  have comment := mark.both (answers_more answers_inLine ends behind).many
  have split := List.takeWhile_append_dropWhile (p := fun c => !endsLine c) (l := behind)
  refine ⟨_, .rule .comment comment.left, ?_, ?_⟩
  · conv_lhs => rw [← split]
    refine .line (fun c member => ?_) (fun c member => ?_) (.nothing _)
    · simpa using List.mem_takeWhile_imp member
    · simpa using head?_dropWhile_eq_false _ behind c member
  · have shorter := (List.dropWhile_suffix (fun c => !endsLine c) (l := behind)).length_le
    simp only [List.length_cons]
    omega

/-- A comment is layout, and where there is none, layout goes on with a blank only. -/
theorem comment_cases (code text : List Char) :
    (∃ rest, Answers code (.rule .comment) text (some rest) ∧ Layout text rest ∧
        rest.length < text.length) ∨
      Answers code (.rule .comment) text none ∧
        ((∀ c ∈ text.head?, c ∉ blanks) → skip text = text) := by
  by_cases line : ∃ behind, text = '/' :: '/' :: behind
  · obtain ⟨behind, rfl⟩ := line
    obtain ⟨rest, answers, layout⟩ := exists_lineComment code behind
    exact .inl ⟨rest, answers, layout⟩
  have noLine : Answers code (.sign "//") text none :=
    .noSign fun behind spelled => line ⟨behind, spelled⟩
  by_cases block : ∃ behind, text = '/' :: '*' :: behind
  · obtain ⟨behind, rfl⟩ := block
    have mark : Answers code (.sign "/*") ('/' :: '*' :: behind) (some behind) := .sign rfl
    cases closed : skipBlock behind with
    | some left =>
        obtain ⟨comment, rest, rfl, unclosed, -⟩ := layout_skipBlock behind left closed
        have ends : Answers code (.sign "*/") ('*' :: '/' :: rest) (some rest) := .sign rfl
        have contents := (answers_upTo_closing unclosed rest).many.both ends
        refine .inl ⟨rest, .rule .comment (noLine.noFirst.right (mark.both contents)),
          .block unclosed (.nothing rest), ?_⟩
        simp only [List.length_cons, List.length_append]
        omega
    | none =>
        have ends : Answers code (.sign "*/") [] none := .noSign fun rest => by simp
        have contents := (answers_upTo_end closed).many.both ends
        refine .inr ⟨.rule .comment (noLine.noFirst.right (mark.both contents)), fun _ => ?_⟩
        rw [skip, closed]
  · have noBlock : Answers code (.sign "/*") text none :=
      .noSign fun behind spelled => block ⟨behind, spelled⟩
    refine .inr ⟨.rule .comment (noLine.noFirst.right noBlock.noFirst), fun bare => ?_⟩
    have layout := layout_skip text
    generalize skip text = rest at layout ⊢
    cases layout with
    | nothing => rfl
    | blank isBlank => exact absurd isBlank (bare _ rfl)
    | line => exact absurd ⟨_, rfl⟩ line
    | block => exact absurd ⟨_, rfl⟩ block

/-! ## Layout -/

/-- Behind blanks, comments with blanks behind them are all the layout there is. -/
theorem answers_comments (text : List Char) (bare : ∀ c ∈ text.head?, c ∉ blanks) :
    Answers code (.more (.rule .comment >> .many (.rule .blank))) text (some (skip text)) := by
  rcases comment_cases code text with
    ⟨behind, comment, layout, shorter⟩ | ⟨missed, solid⟩
  · obtain ⟨rest, others, layout', bare'⟩ := exists_blanks code behind
    have within := layout'.length_le
    rw [(layout.trans layout').skip_eq]
    exact .more (comment.both others.many) (answers_comments rest bare')
  · rw [solid bare]
    exact .last missed.noFirst
termination_by text.length

/-- **Layout takes what the reader of layout takes.** -/
theorem answers_layout (text : List Char) : Answers code .layout text (some (skip text)) := by
  obtain ⟨rest, first, layout, bare⟩ := exists_blanks code text
  rw [layout.skip_eq]
  exact first.many.both (answers_comments rest bare).many

end Datalog.Grammar
