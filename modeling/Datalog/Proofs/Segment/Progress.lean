import Datalog.Proofs.Grammar.Completeness
import Datalog.Segment

/-!
# Reading goes on

Every segment takes a character at least: a statement is never empty, and what is
passed over as malformed ends behind the place where it began.  So the segments
of a text do not depend on how many were allowed for (`Segment.upTo_eq`), and a
property of texts may be shown segment by segment (`Segment.induction`).
-/

set_option autoImplicit false

namespace Datalog

open Grammar

/-! ## Recovery moves forward -/

namespace Recovery

mutual
/-- Passing over a statement leaves a suffix. -/
theorem passCode_suffix (begun : Bool) : ∀ text : List Char, passCode begun text <:+ text
  | [] => by simp [passCode]
  | c :: rest => by
      unfold passCode
      split
      next heq => cases heq
      next heq =>
        cases heq
        exact ((passLine_suffix _ _).trans (List.suffix_cons _ _)).trans (List.suffix_cons _ _)
      next heq =>
        cases heq
        exact ((passBlock_suffix _ _).trans (List.suffix_cons _ _)).trans (List.suffix_cons _ _)
      next heq => cases heq; exact (passString_suffix _).trans (List.suffix_cons _ _)
      next heq =>
        cases heq
        split
        · split
          · exact List.suffix_rfl
          · exact (passCode_suffix true _).trans (List.suffix_cons _ _)
        · exact List.suffix_cons _ _
      next heq => cases heq; exact (passCode_suffix _ _).trans (List.suffix_cons _ _)

theorem passLine_suffix (begun : Bool) : ∀ text : List Char, passLine begun text <:+ text
  | [] => by simp [passLine]
  | c :: rest => by
      unfold passLine
      split
      next heq => cases heq
      next heq => cases heq; exact (passCode_suffix _ _).trans (List.suffix_cons _ _)
      next heq => cases heq; exact (passCode_suffix _ _).trans (List.suffix_cons _ _)
      next heq => cases heq; exact (passLine_suffix _ _).trans (List.suffix_cons _ _)

theorem passBlock_suffix (begun : Bool) : ∀ text : List Char, passBlock begun text <:+ text
  | [] => by simp [passBlock]
  | c :: rest => by
      unfold passBlock
      split
      next heq => cases heq
      next heq =>
        cases heq
        exact ((passCode_suffix _ _).trans (List.suffix_cons _ _)).trans (List.suffix_cons _ _)
      next heq => cases heq; exact (passBlock_suffix _ _).trans (List.suffix_cons _ _)

theorem passString_suffix : ∀ text : List Char, passString text <:+ text
  | [] => by simp [passString]
  | c :: rest => by
      unfold passString
      split
      next heq => cases heq
      next heq => cases heq; exact List.nil_suffix
      next heq =>
        cases heq
        exact ((passString_suffix _).trans (List.suffix_cons _ _)).trans (List.suffix_cons _ _)
      next heq => cases heq; exact (passCode_suffix _ _).trans (List.suffix_cons _ _)
      next heq => cases heq; exact (passString_suffix _).trans (List.suffix_cons _ _)
end

/-- **Recovery passes a character at least.**  A declaration stops it only behind
something that belongs to the statement. -/
theorem resume_suffix (c : Char) (rest : List Char) : resume (c :: rest) <:+ rest := by
  unfold resume passCode
  split
  next heq => cases heq
  next heq => cases heq; exact (passLine_suffix _ _).trans (List.suffix_cons _ _)
  next heq => cases heq; exact (passBlock_suffix _ _).trans (List.suffix_cons _ _)
  next heq => cases heq; exact passString_suffix _
  next heq =>
    cases heq
    split
    · exact passCode_suffix true _
    · exact List.suffix_rfl
  next heq => cases heq; exact passCode_suffix _ _

theorem length_resume_lt {text : List Char} (some : text ≠ []) :
    (resume text).length < text.length := by
  cases text with
  | nil => exact absurd rfl some
  | cons c rest => exact Nat.lt_succ_of_le (resume_suffix c rest).length_le

end Recovery

/-! ## Statements take characters -/

theorem Grammar.length_lt_of_read_statement {text rest : List Char} {stated : Statement}
    (read : statement.read text = some (stated, rest)) : rest.length < text.length := by
  obtain ⟨tree, stop, derives, behind, -⟩ := statement_sound read
  have first := derives.length_lt
  have second := behind.length_le
  omega

theorem Grammar.read_nextStatement (text : List Char) :
    nextStatement.read text = statement.read (skip text) := rfl

/-! ## Segments -/

namespace Segment

/-- A statement is a segment. -/
theorem next_of_read {text rest : List Char} {stated : Statement}
    (read : nextStatement.read text = some (stated, rest)) :
    next text = (⟨text.length, rest.length, .statement (skip text).length stated⟩, rest) := by
  rw [next, Phrase.parse, read]

/-- What is no statement is a segment up to the place where reading goes on. -/
theorem next_of_refused {text : List Char} (refused : nextStatement.read text = none) :
    next text =
      (⟨text.length, (Recovery.resume text).length, .malformed (nextStatement.fault text)⟩,
        Recovery.resume text) := by
  rw [next, Phrase.parse, refused]

/-- **Every segment takes a character at least.** -/
theorem length_next_lt {text : List Char} (more : skip text ≠ []) :
    (next text).2.length < text.length := by
  cases read : nextStatement.read text with
  | none =>
      rw [next_of_refused read]
      refine Recovery.length_resume_lt ?_
      rintro rfl
      exact more (by simp [skip])
  | some found =>
      obtain ⟨stated, rest⟩ := found
      rw [next_of_read read]
      rw [read_nextStatement] at read
      exact Nat.lt_of_lt_of_le (length_lt_of_read_statement read) (length_skip_le text)

theorem upTo_of_skip_eq_nil {text : List Char} (done : skip text = []) (limit : Nat) :
    upTo limit text = [] := by
  cases limit with
  | zero => rfl
  | succ limit => rw [upTo, done, List.isEmpty_nil, if_pos rfl]

theorem upTo_succ {text : List Char} (more : skip text ≠ []) (limit : Nat) :
    upTo (limit + 1) text = (next text).1 :: upTo limit (next text).2 := by
  have goesOn : ¬ (skip text).isEmpty = true := by simpa using more
  rw [upTo, if_neg goesOn]

/-- It makes no difference how many segments are allowed for, if they are enough. -/
theorem upTo_eq {limit limit' : Nat} {text : List Char} (enough : text.length ≤ limit)
    (enough' : text.length ≤ limit') : upTo limit text = upTo limit' text := by
  induction limit generalizing text limit' with
  | zero =>
      obtain rfl := List.length_eq_zero_iff.mp (Nat.le_zero.mp enough)
      rw [upTo_of_skip_eq_nil (by simp [skip]), upTo_of_skip_eq_nil (by simp [skip])]
  | succ limit ih =>
      by_cases done : skip text = []
      · rw [upTo_of_skip_eq_nil done, upTo_of_skip_eq_nil done]
      · have shorter := length_next_lt done
        obtain ⟨limit', rfl⟩ : ∃ less, limit' = less + 1 := ⟨limit' - 1, by omega⟩
        have enough := Nat.lt_of_lt_of_le shorter enough
        have enough' := Nat.lt_of_lt_of_le shorter enough'
        rw [upTo_succ done, upTo_succ done,
          ih (Nat.le_of_lt_succ enough) (Nat.le_of_lt_succ enough')]

theorem all_of_skip_eq_nil {text : List Char} (done : skip text = []) : all text = [] :=
  upTo_of_skip_eq_nil done text.length

/-- **The segments of a text are its first one and those of what is left.** -/
theorem all_eq_cons {text : List Char} (more : skip text ≠ []) :
    all text = (next text).1 :: all (next text).2 := by
  have shorter := length_next_lt more
  obtain ⟨limit, same⟩ : ∃ less, text.length = less + 1 := ⟨text.length - 1, by omega⟩
  rw [all, same, upTo_succ more, all, upTo_eq (by omega) (Nat.le_refl _)]

/-- What holds at the end of a text, and of a text if it holds behind its first
segment, holds of every text. -/
theorem induction {motive : List Char → Prop} (done : ∀ text, skip text = [] → motive text)
    (step : ∀ text, skip text ≠ [] → motive (next text).2 → motive text) (text : List Char) :
    motive text := by
  by_cases ends : skip text = []
  · exact done text ends
  · exact step text ends (induction done step (next text).2)
termination_by text.length
decreasing_by exact length_next_lt ends

end Segment

end Datalog
