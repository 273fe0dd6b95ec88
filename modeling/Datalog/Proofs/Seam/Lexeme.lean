import Datalog.Proofs.Grammar.Starts
import Datalog.Proofs.Isolation.Unstopped

/-!
# Lexemes in front of a seam

Two texts are put together, and the seam is where the second one begins.  Either
nothing stands behind the seam, or a line that starts with a full stop does and the
first text ends in code: no string constant and no comment with a closing mark is open
at its end.

A lexeme that begins in front of such a seam ends in front of it, and it is there
whatever line stands behind the seam (`Seam.word` and its companions).  Layout alone
may pass the seam, and then it leads up to the full stop (`Seam.layout`).
-/

set_option autoImplicit false

namespace Datalog.Grammar

/-! ## Texts that end in code -/

/-- A text at whose end no string constant is open, and no comment except one that
ends with its line. -/
inductive InCode : List Char → Prop
  | nothing : InCode []
  | plain {c : Char} {rest : List Char} (isPlain : c ∉ ['"', '/']) (behind : InCode rest) :
      InCode (c :: rest)
  /-- A slash that opens no comment. -/
  | slash {rest : List Char} (lone : ∀ c ∈ rest.head?, c ∉ ['/', '*']) (behind : InCode rest) :
      InCode ('/' :: rest)
  | string {interior rest : List Char} (isInterior : Interior interior) (behind : InCode rest) :
      InCode ('"' :: (interior ++ '"' :: rest))
  | line {comment rest : List Char} (inLine : ∀ c ∈ comment, endsLine c = false)
      (lineEnd : StartsLine rest) (behind : InCode rest) : InCode ('/' :: '/' :: (comment ++ rest))
  | block {comment rest : List Char} (unclosed : ¬ ['*', '/'] <:+: comment)
      (behind : InCode rest) : InCode ('/' :: '*' :: (comment ++ '*' :: '/' :: rest))

/-- A comment ends with its line in one way only. -/
theorem line_unique {comment comment' text text' : List Char}
    (inLine : ∀ c ∈ comment, endsLine c = false) (inLine' : ∀ c ∈ comment', endsLine c = false)
    (starts : StartsLine text) (starts' : StartsLine text')
    (same : comment ++ text = comment' ++ text') : comment = comment' ∧ text = text' := by
  have ends {line : List Char} (starts : StartsLine line) :
      ∀ c ∈ line.head?, (!endsLine c) = false := by
    intro c head
    rw [starts c head]
    rfl
  have all {line : List Char} (inLine : ∀ c ∈ line, endsLine c = false) :
      ∀ c ∈ line, (!endsLine c) = true := by
    intro c member
    rw [inLine c member]
    rfl
  have first := takeWhile_of_ends (all inLine) (ends starts)
  have behind := dropWhile_of_ends (all inLine) (ends starts)
  rw [same, takeWhile_of_ends (all inLine') (ends starts')] at first
  rw [same, dropWhile_of_ends (all inLine') (ends starts')] at behind
  exact ⟨first.symm, behind.symm⟩

/-- A comment is closed by its first closing mark. -/
theorem block_unique {comment comment' text text' : List Char}
    (unclosed : ¬ ['*', '/'] <:+: comment) (unclosed' : ¬ ['*', '/'] <:+: comment')
    (same : comment ++ '*' :: '/' :: text = comment' ++ '*' :: '/' :: text') :
    comment = comment' ∧ text = text' := by
  induction comment generalizing comment' with
  | nil =>
      rcases comment' with _ | ⟨c, _ | ⟨d, comment'⟩⟩
      · exact ⟨rfl, by simpa using same⟩
      · simp at same
      · obtain ⟨rfl, rfl, -⟩ : '*' = c ∧ '/' = d ∧ text = comment' ++ '*' :: '/' :: text' := by
          simpa using same
        exact absurd ⟨[], comment', rfl⟩ unclosed'
  | cons c comment ih =>
      cases comment' with
      | nil =>
          rcases comment with _ | ⟨d, comment⟩
          · simp at same
          · obtain ⟨rfl, rfl, -⟩ : c = '*' ∧ d = '/' ∧ comment ++ '*' :: '/' :: text = text' := by
              simpa using same
            exact absurd ⟨[], comment, rfl⟩ unclosed
      | cons d comment' =>
          obtain ⟨rfl, same'⟩ := List.cons.inj same
          have further {line : List Char} (unclosed : ¬ ['*', '/'] <:+: c :: line) :
              ¬ ['*', '/'] <:+: line := fun inside =>
            unclosed (inside.trans (List.suffix_cons c line).isInfix)
          obtain ⟨rfl, rfl⟩ := ih (further unclosed) (further unclosed') same'
          exact ⟨rfl, rfl⟩

namespace InCode

theorem of_cons {c : Char} {rest : List Char} (inCode : InCode (c :: rest))
    (single : c ∉ ['"', '/']) : InCode rest := by
  cases inCode with
  | plain _ behind => exact behind
  | slash | string | line | block => exact absurd single (by simp)

/-- A quote starts a string constant. -/
theorem of_quote {rest : List Char} (inCode : InCode ('"' :: rest)) :
    ∃ interior behind, rest = interior ++ '"' :: behind ∧ Interior interior ∧ InCode behind := by
  generalize same : '"' :: rest = text at inCode
  cases inCode with
  | nothing | slash | line | block => cases same
  | plain isPlain _ =>
      obtain ⟨rfl, -⟩ := List.cons.inj same
      exact absurd isPlain (by simp)
  | string isInterior behind =>
      obtain ⟨-, rfl⟩ := List.cons.inj same
      exact ⟨_, _, rfl, isInterior, behind⟩

/-- Two slashes start a comment that ends with its line. -/
theorem of_line {rest : List Char} (inCode : InCode ('/' :: '/' :: rest)) :
    ∃ comment behind, rest = comment ++ behind ∧ (∀ c ∈ comment, endsLine c = false) ∧
      StartsLine behind ∧ InCode behind := by
  generalize same : '/' :: '/' :: rest = text at inCode
  cases inCode with
  | nothing | string | block => cases same
  | plain isPlain _ =>
      obtain ⟨rfl, -⟩ := List.cons.inj same
      exact absurd isPlain (by simp)
  | slash lone _ =>
      obtain ⟨-, rfl⟩ := List.cons.inj same
      exact absurd (lone '/' rfl) (by simp)
  | line inLine lineEnd behind =>
      obtain ⟨-, same⟩ := List.cons.inj same
      obtain ⟨-, rfl⟩ := List.cons.inj same
      exact ⟨_, _, rfl, inLine, lineEnd, behind⟩

/-- A slash and a star start a comment that is closed. -/
theorem of_block {rest : List Char} (inCode : InCode ('/' :: '*' :: rest)) :
    ∃ comment behind, rest = comment ++ '*' :: '/' :: behind ∧ ¬ ['*', '/'] <:+: comment ∧
      InCode behind := by
  generalize same : '/' :: '*' :: rest = text at inCode
  cases inCode with
  | nothing | string | line => cases same
  | plain isPlain _ =>
      obtain ⟨rfl, -⟩ := List.cons.inj same
      exact absurd isPlain (by simp)
  | slash lone _ =>
      obtain ⟨-, rfl⟩ := List.cons.inj same
      exact absurd (lone '*' rfl) (by simp)
  | block unclosed behind =>
      obtain ⟨-, same⟩ := List.cons.inj same
      obtain ⟨-, rfl⟩ := List.cons.inj same
      exact ⟨_, _, rfl, unclosed, behind⟩

end InCode

/-! ## Seams -/

/-- Nothing stands behind the seam, or a line that starts with a full stop does and
the text in front of it ends in code. -/
inductive Seam : List Char → List Char → Prop
  | last (front : List Char) : Seam front []
  | next {front : List Char} (inCode : InCode front) (more : List Char) :
      Seam front ('\n' :: '.' :: more)

/-- What a relation leaves of a text begins in front of the seam, and the relation
holds whatever line stands behind the seam. -/
def Stays (relation : List Char → List Char → Prop) (front behind rest : List Char) : Prop :=
  ∃ left, rest = left ++ behind ∧ (InCode front → InCode left) ∧
    ∀ other, StartsLine other → relation (front ++ other) (left ++ other)

/-- Letters that open neither a string constant nor a comment and end no line. -/
def Inert (letters : List Char) : Prop := ∀ c ∈ letters, c ∉ ['"', '/', '\n']

instance (letters : List Char) : Decidable (Inert letters) :=
  decidable_of_iff ((letters.all fun c => not (['"', '/', '\n'].contains c)) = true)
    (by simp [Inert])

namespace Seam

variable {front behind rest : List Char}

/-- What is left of a text in front of a seam stands in front of the seam. -/
theorem left {left : List Char} (seam : Seam front behind) (kept : InCode front → InCode left) :
    Seam left behind := by
  cases seam with
  | last => exact .last left
  | next inCode more => exact .next (kept inCode) more

/-- The letters at the start of a text end in front of the seam, unless one of them
is a line feed. -/
theorem of_letters {letters : List Char} (seam : Seam front behind)
    (inside : Inert letters) (same : front ++ behind = letters ++ rest) :
    ∃ left, front = letters ++ left ∧ rest = left ++ behind ∧ (InCode front → InCode left) := by
  induction letters generalizing front with
  | nil => exact ⟨front, rfl, same.symm, id⟩
  | cons c letters ih =>
      have own : c ∉ ['"', '/', '\n'] := inside c List.mem_cons_self
      cases front with
      | nil =>
          cases seam with
          | last => cases same
          | next =>
              obtain ⟨rfl, -⟩ := List.cons.inj same
              exact absurd own (by simp)
      | cons d front =>
          obtain ⟨rfl, same'⟩ := List.cons.inj same
          have single : d ∉ ['"', '/'] := by simp_all
          obtain ⟨left, rfl, rfl, kept⟩ := ih (seam.left fun inCode => inCode.of_cons single)
            (fun e member => inside e (List.mem_cons_of_mem _ member)) same'
          exact ⟨left, rfl, rfl, fun inCode => kept (inCode.of_cons single)⟩

/-- A string constant that begins in front of the seam ends there. -/
theorem of_quote {interior : List Char} (seam : Seam front behind) (isInterior : Interior interior)
    (same : front ++ behind = '"' :: (interior ++ '"' :: rest)) :
    ∃ left, front = '"' :: (interior ++ '"' :: left) ∧ rest = left ++ behind ∧
      (InCode front → InCode left) := by
  have closed {left : List Char} (inCode : InCode ('"' :: (interior ++ '"' :: left))) :
      InCode left := by
    obtain ⟨interior', left', same', isInterior', behind'⟩ := inCode.of_quote
    obtain ⟨-, rfl⟩ := isInterior.unique isInterior' same'
    exact behind'
  cases seam with
  | last =>
      rw [List.append_nil] at same
      subst same
      exact ⟨rest, rfl, (List.append_nil _).symm, closed⟩
  | next inCode more =>
      cases front with
      | nil => cases same
      | cons c front =>
          obtain ⟨rfl, same'⟩ := List.cons.inj same
          obtain ⟨interior', left, rfl, isInterior', -⟩ := inCode.of_quote
          obtain ⟨rfl, rfl⟩ := isInterior'.unique isInterior
            ((List.append_assoc _ _ _).symm.trans same')
          exact ⟨left, rfl, rfl, closed⟩

/-- A comment to the end of its line that begins in front of the seam ends there. -/
theorem of_line {comment : List Char} (seam : Seam front behind)
    (inLine : ∀ c ∈ comment, endsLine c = false) (lineEnd : StartsLine rest)
    (same : front ++ behind = '/' :: '/' :: (comment ++ rest)) :
    ∃ left, front = '/' :: '/' :: (comment ++ left) ∧ rest = left ++ behind ∧ StartsLine left ∧
      (InCode front → InCode left) := by
  have ended {left : List Char} (lineEnd : StartsLine left)
      (inCode : InCode ('/' :: '/' :: (comment ++ left))) : InCode left := by
    obtain ⟨comment', left', same', inLine', lineEnd', behind'⟩ := inCode.of_line
    obtain ⟨-, rfl⟩ := line_unique inLine inLine' lineEnd lineEnd' same'
    exact behind'
  cases seam with
  | last =>
      rw [List.append_nil] at same
      subst same
      exact ⟨rest, rfl, (List.append_nil _).symm, lineEnd, ended lineEnd⟩
  | next inCode more =>
      rcases front with _ | ⟨c, _ | ⟨d, front⟩⟩
      · cases same
      · cases same
      · obtain ⟨rfl, same'⟩ := List.cons.inj same
        obtain ⟨rfl, same''⟩ := List.cons.inj same'
        obtain ⟨comment', left, rfl, inLine', lineEnd', -⟩ := inCode.of_line
        have feeds : StartsLine (left ++ '\n' :: '.' :: more) := by
          cases left with
          | nil => simp [StartsLine, endsLine]
          | cons e left => exact lineEnd'
        obtain ⟨rfl, rfl⟩ := line_unique inLine' inLine feeds lineEnd
          ((List.append_assoc _ _ _).symm.trans same'')
        exact ⟨left, rfl, rfl, lineEnd', ended lineEnd'⟩

/-- A comment with a closing mark that begins in front of the seam is closed there. -/
theorem of_block {comment : List Char} (seam : Seam front behind)
    (unclosed : ¬ ['*', '/'] <:+: comment)
    (same : front ++ behind = '/' :: '*' :: (comment ++ '*' :: '/' :: rest)) :
    ∃ left, front = '/' :: '*' :: (comment ++ '*' :: '/' :: left) ∧ rest = left ++ behind ∧
      (InCode front → InCode left) := by
  have closed {left : List Char} (inCode : InCode ('/' :: '*' :: (comment ++ '*' :: '/' :: left))) :
      InCode left := by
    obtain ⟨comment', left', same', unclosed', behind'⟩ := inCode.of_block
    obtain ⟨-, rfl⟩ := block_unique unclosed unclosed' same'
    exact behind'
  cases seam with
  | last =>
      rw [List.append_nil] at same
      subst same
      exact ⟨rest, rfl, (List.append_nil _).symm, closed⟩
  | next inCode more =>
      rcases front with _ | ⟨c, _ | ⟨d, front⟩⟩
      · cases same
      · cases same
      · obtain ⟨rfl, same'⟩ := List.cons.inj same
        obtain ⟨rfl, same''⟩ := List.cons.inj same'
        obtain ⟨comment', left, rfl, unclosed', -⟩ := inCode.of_block
        obtain ⟨rfl, rfl⟩ := block_unique unclosed' unclosed
          ((List.append_assoc _ _ _).symm.trans same'')
        exact ⟨left, rfl, rfl, closed⟩

/-! ## Layout -/

theorem startsLine_append {line other : List Char} (starts : StartsLine line)
    (starts' : StartsLine other) : StartsLine (line ++ other) := by
  cases line with
  | nil => exact starts'
  | cons c line => exact starts

/-- **Layout ends in front of the seam or passes it.**  If it ends in front of it, it
does so whatever line stands behind the seam; if it passes it, all of the text is
layout, and a full stop comes next. -/
theorem layout (seam : Seam front behind) (layout : Layout (front ++ behind) rest) :
    Stays Layout front behind rest ∨
    ∃ more, behind = '\n' :: '.' :: more ∧ rest = '.' :: more ∧
      ∀ other, StartsLine other → Layout (front ++ other) other := by
  generalize same : front ++ behind = text at layout
  induction layout generalizing front with
  | nothing =>
      exact .inl ⟨front, same.symm, id, fun other _ => .nothing _⟩
  | @blank c text rest isBlank further ih =>
      have single : c ∉ ['"', '/'] := by
        simp only [List.mem_cons, List.not_mem_nil, or_false] at isBlank
        rcases isBlank with rfl | rfl | rfl | rfl <;> decide
      cases front with
      | nil =>
          cases seam with
          | last => cases same
          | next inCode more =>
              obtain ⟨rfl, rfl⟩ := List.cons.inj same
              refine .inr ⟨more, rfl, ?_, fun other _ => .nothing other⟩
              cases further with
              | nothing => rfl
              | blank isBlank' => exact absurd isBlank' (by decide)
      | cons d front =>
          obtain ⟨rfl, same'⟩ := List.cons.inj same
          rcases ih (seam.left fun inCode => inCode.of_cons single) same' with
            ⟨left, rfl, kept, moved⟩ | ⟨more, rfl, rfl, moved⟩
          · exact .inl ⟨left, rfl, fun inCode => kept (inCode.of_cons single),
              fun other starts => .blank isBlank (moved other starts)⟩
          · exact .inr ⟨more, rfl, rfl, fun other starts => .blank isBlank (moved other starts)⟩
  | @line comment text rest inLine lineEnd _ ih =>
      obtain ⟨front', rfl, rfl, lineEnd', kept₁⟩ := seam.of_line inLine lineEnd same
      have longer {other stop : List Char} (starts : StartsLine other)
          (moved : Layout (front' ++ other) stop) :
          Layout ('/' :: '/' :: (comment ++ front') ++ other) stop := by
        have line := Layout.line inLine (startsLine_append lineEnd' starts) moved
        simpa using line
      rcases ih (seam.left kept₁) rfl with ⟨left, rfl, kept, moved⟩ | ⟨more, rfl, rfl, moved⟩
      · exact .inl ⟨left, rfl, fun inCode => kept (kept₁ inCode),
          fun other starts => longer starts (moved other starts)⟩
      · exact .inr ⟨more, rfl, rfl, fun other starts => longer starts (moved other starts)⟩
  | @block comment text rest unclosed _ ih =>
      obtain ⟨front', rfl, rfl, kept₁⟩ := seam.of_block unclosed same
      have longer {other stop : List Char} (moved : Layout (front' ++ other) stop) :
          Layout ('/' :: '*' :: (comment ++ '*' :: '/' :: front') ++ other) stop := by
        have block := Layout.block unclosed moved
        simpa using block
      rcases ih (seam.left kept₁) rfl with ⟨left, rfl, kept, moved⟩ | ⟨more, rfl, rfl, moved⟩
      · exact .inl ⟨left, rfl, fun inCode => kept (kept₁ inCode),
          fun other starts => longer (moved other starts)⟩
      · exact .inr ⟨more, rfl, rfl, fun other starts => longer (moved other starts)⟩

/-- Layout that leads up to another sign than a full stop ends in front of the seam. -/
theorem layout_of_ne (seam : Seam front behind) (layout : Layout (front ++ behind) rest)
    (other : rest.head? ≠ some '.') : Stays Layout front behind rest := by
  rcases seam.layout layout with inside | ⟨more, -, rfl, -⟩
  · exact inside
  · exact absurd rfl other

/-- The same, with the sign taken off. -/
theorem layout_sign {c : Char} (seam : Seam front behind)
    (layout : Layout (front ++ behind) (c :: rest)) (isSign : c ∉ ['"', '/', '\n', '.']) :
    Stays (fun text left => Layout text (c :: left)) front behind rest := by
  have single : ∀ d ∈ [c], d ∉ ['"', '/', '\n'] := by simp_all
  obtain ⟨left, same, kept, moved⟩ := seam.layout_of_ne layout (by simp_all)
  obtain ⟨left', rfl, rfl, kept₁⟩ := (seam.left kept).of_letters single same.symm
  exact ⟨left', rfl, fun inCode => kept₁ (kept inCode), moved⟩

/-! ## Words, numerals and operators -/

/-- No name goes on with a line. -/
theorem beginsInName_of_startsLine {left other : List Char}
    (ends : beginsInName (left ++ behind) = false) (starts : StartsLine other) :
    beginsInName (left ++ other) = false := by
  cases left with
  | cons c left => exact ends
  | nil =>
      rw [List.nil_append, beginsInName_eq_false_iff]
      intro c head
      have own : c = '\n' ∨ c = '\r' := by simpa [endsLine] using starts c head
      rcases own with rfl | rfl <;> decide

theorem notMem_of_continuesName {c : Char} (continues : continuesName c = true) :
    c ∉ ['"', '/', '\n'] := by
  intro member
  simp only [List.mem_cons, List.not_mem_nil, or_false] at member
  rcases member with rfl | rfl | rfl <;> revert continues <;> decide

/-- A word in front of a seam. -/
theorem word {name : String} (seam : Seam front behind) (word : Word (front ++ behind) name rest) :
    Stays (fun text left => Word text name left) front behind rest := by
  obtain ⟨spelled, isName, ends⟩ := word
  obtain ⟨left, rfl, rfl, kept⟩ := seam.of_letters
    (fun c member => notMem_of_continuesName (continuesName_of_mem isName member)) spelled
  refine ⟨left, rfl, kept, fun other starts => ?_⟩
  exact ⟨List.append_assoc _ _ _, isName, beginsInName_of_startsLine ends starts⟩

/-- A numeral in front of a seam. -/
theorem number {spelling : List Char} (seam : Seam front behind)
    (number : NumberText (front ++ behind) spelling rest) :
    Stays (fun text left => NumberText text spelling left) front behind rest := by
  obtain ⟨spelled, digits, ends⟩ := number
  have inside : Inert spelling := by
    obtain ⟨digits, -, all, form⟩ := digits
    have plain : Inert digits := fun c member =>
      notMem_of_continuesName (continuesName_of_isDigit (all c member))
    rcases form with rfl | rfl
    · exact plain
    · exact List.forall_mem_cons.mpr ⟨by decide, plain⟩
  obtain ⟨left, rfl, rfl, kept⟩ := seam.of_letters inside spelled
  refine ⟨left, rfl, kept, fun other starts => ?_⟩
  exact ⟨List.append_assoc _ _ _, digits, beginsInName_of_startsLine ends starts⟩

/-- An operator in front of a seam. -/
theorem operator {operator : Comparison} (seam : Seam front behind)
    (sign : OperatorText (front ++ behind) operator rest) :
    Stays (fun text left => OperatorText text operator left) front behind rest := by
  obtain ⟨spelled, ends⟩ := sign
  have inside : Inert operator.operator.toList := by
    cases operator <;> decide
  obtain ⟨left, rfl, rfl, kept⟩ := seam.of_letters inside spelled
  refine ⟨left, rfl, kept, fun other starts => ⟨List.append_assoc _ _ _, fun isAngle => ?_⟩⟩
  cases left with
  | cons c left => exact ends isAngle
  | nil =>
      intro head
      exact absurd (starts '=' head) (by decide)

end Seam

end Datalog.Grammar
