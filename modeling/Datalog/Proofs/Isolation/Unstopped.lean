import Datalog.Proofs.Grammar.Lexical
import Datalog.Recovery

/-!
# Texts up to a full stop

A text is unstopped when no full stop stands outside its string constants and
comments, and all of these are closed.  Behind such a text the first full stop is
found by everyone alike: the layout at its start ends in front of the full stop at
the latest (`Unstopped.skip_eq`), and recovery ends right behind it
(`Recovery.passCode_append`).  What stands behind the full stop has no say in either,
unless it completes the keyword of a declaration.
-/

set_option autoImplicit false

namespace Datalog

open Grammar

/-! ## Unstopped texts -/

/-- A text without a full stop outside its string constants and comments, all of
which are closed. -/
inductive Unstopped : List Char → Prop
  | nothing : Unstopped []
  | plain {c : Char} {rest : List Char} (isPlain : c ∉ ['.', '"', '/']) (behind : Unstopped rest) :
      Unstopped (c :: rest)
  /-- A slash that opens no comment. -/
  | slash {rest : List Char} (lone : ∀ c ∈ rest.head?, c ∉ ['/', '*']) (behind : Unstopped rest) :
      Unstopped ('/' :: rest)
  | string {interior rest : List Char} (isInterior : Interior interior)
      (behind : Unstopped rest) : Unstopped ('"' :: (interior ++ '"' :: rest))
  | line {comment rest : List Char} {c : Char} (inLine : ∀ d ∈ comment, endsLine d = false)
      (lineEnd : endsLine c = true) (behind : Unstopped rest) :
      Unstopped ('/' :: '/' :: (comment ++ c :: rest))
  | block {comment rest : List Char} (unclosed : ¬ ['*', '/'] <:+: comment)
      (behind : Unstopped rest) : Unstopped ('/' :: '*' :: (comment ++ '*' :: '/' :: rest))

/-- Letters of which each is passed by itself and none is a full stop. -/
def Plain (letters : List Char) : Prop := ∀ c ∈ letters, c ∉ ['.', '"', '/']

instance (letters : List Char) : Decidable (Plain letters) :=
  decidable_of_iff ((letters.all fun c => not (['.', '"', '/'].contains c)) = true)
    (by simp [Plain])

/-- A text that does not go on with the line at hand. -/
def StartsLine (text : List Char) : Prop := ∀ c ∈ text.head?, endsLine c = true

theorem mem_blanks_of_endsLine {c : Char} (lineEnd : endsLine c = true) :
    c ∈ [' ', '\t', '\n', '\r'] := by
  have own : c = '\n' ∨ c = '\r' := by simpa [endsLine] using lineEnd
  rcases own with rfl | rfl <;> simp

/-! ## Shorter texts -/

namespace Unstopped

theorem of_cons {c : Char} {rest : List Char} (unstopped : Unstopped (c :: rest))
    (single : c ∉ ['"', '/']) : Unstopped rest := by
  cases unstopped with
  | plain _ behind => exact behind
  | slash | string | line | block => exact absurd single (by simp)

theorem head_ne {c : Char} {rest : List Char} (unstopped : Unstopped (c :: rest)) : c ≠ '.' := by
  rintro rfl
  cases unstopped with
  | plain isPlain _ => exact isPlain (by simp)

/-- Letters that an unstopped text starts with in front of its full stop. -/
theorem of_letters {letters front tail rest : List Char} (plain : Plain letters)
    (unstopped : Unstopped front) (same : front ++ '.' :: tail = letters ++ rest) :
    ∃ front', front = letters ++ front' ∧ Unstopped front' ∧ rest = front' ++ '.' :: tail := by
  induction letters generalizing front with
  | nil => exact ⟨front, rfl, unstopped, same.symm⟩
  | cons c letters ih =>
      have own : c ∉ ['.', '"', '/'] := plain c List.mem_cons_self
      cases front with
      | nil =>
          obtain ⟨rfl, -⟩ := List.cons.inj same
          exact absurd own (by simp)
      | cons d front =>
          obtain ⟨rfl, same'⟩ := List.cons.inj same
          have others : Plain letters := fun e member => plain e (List.mem_cons_of_mem _ member)
          obtain ⟨front', rfl, behind⟩ := ih others (unstopped.of_cons (by simp_all)) same'
          exact ⟨front', rfl, behind⟩

/-- An unstopped text that starts with a quote starts with a string constant. -/
theorem of_quote {rest : List Char} (unstopped : Unstopped ('"' :: rest)) :
    ∃ interior behind, rest = interior ++ '"' :: behind ∧ Interior interior ∧ Unstopped behind := by
  generalize same : '"' :: rest = text at unstopped
  cases unstopped with
  | nothing | slash | line | block => cases same
  | plain isPlain _ =>
      obtain ⟨rfl, -⟩ := List.cons.inj same
      exact absurd isPlain (by simp)
  | string isInterior behind =>
      obtain ⟨-, rfl⟩ := List.cons.inj same
      exact ⟨_, _, rfl, isInterior, behind⟩

/-! ## Layout -/

/-- What opens no comment opens none in front of a full stop. -/
theorem append_ne_of_lone {rest : List Char} (lone : ∀ c ∈ rest.head?, c ∉ ['/', '*'])
    (tail behind : List Char) :
    rest ++ '.' :: tail ≠ '/' :: behind ∧ rest ++ '.' :: tail ≠ '*' :: behind := by
  cases rest with
  | nil => simp
  | cons c rest =>
      have single : c ∉ ['/', '*'] := lone c rfl
      simp_all

/-- **Layout ends in front of the full stop**, at a place that does not depend on what
stands behind it. -/
theorem skip_eq {front : List Char} (unstopped : Unstopped front) :
    ∃ front', Unstopped front' ∧ front' <:+ front ∧
      ∀ tail, skip (front ++ '.' :: tail) = front' ++ '.' :: tail := by
  induction unstopped with
  | nothing =>
      refine ⟨[], .nothing, List.suffix_rfl, fun tail => ?_⟩
      exact Solid.skip_eq ⟨'.', tail, rfl, by simp⟩
  | @plain c rest isPlain behind ih =>
      by_cases isBlank : c ∈ [' ', '\t', '\n', '\r']
      · obtain ⟨front', settled, suffix, same⟩ := ih
        refine ⟨front', settled, suffix.trans (List.suffix_cons _ _), fun tail => ?_⟩
        exact (Layout.blank isBlank (.nothing (rest ++ '.' :: tail))).skip_eq.trans (same tail)
      · refine ⟨c :: rest, .plain isPlain behind, List.suffix_rfl, fun tail => ?_⟩
        exact Solid.skip_eq ⟨c, _, rfl, by simp_all⟩
  | @slash rest lone behind ih =>
      refine ⟨'/' :: rest, .slash lone behind, List.suffix_rfl, fun tail => ?_⟩
      have opensNone := append_ne_of_lone lone tail
      rw [List.cons_append, skip.eq_7] <;> simp_all
  | string isInterior behind ih =>
      refine ⟨_, .string isInterior behind, List.suffix_rfl, fun tail => ?_⟩
      exact Solid.skip_eq ⟨'"', _, rfl, by simp⟩
  | @line comment rest c inLine lineEnd behind ih =>
      obtain ⟨front', settled, suffix, same⟩ := ih
      refine ⟨front', settled, ?_, fun tail => ?_⟩
      · exact suffix.trans ⟨'/' :: '/' :: (comment ++ [c]), by simp⟩
      · have isBlank := mem_blanks_of_endsLine lineEnd
        have ends : StartsLine (c :: (rest ++ '.' :: tail)) := by simpa [StartsLine] using lineEnd
        rw [← same tail, ← (Layout.line inLine ends (.blank isBlank (.nothing _))).skip_eq]
        simp
  | @block comment rest unclosed behind ih =>
      obtain ⟨front', settled, suffix, same⟩ := ih
      refine ⟨front', settled, ?_, fun tail => ?_⟩
      · exact suffix.trans ⟨'/' :: '*' :: (comment ++ ['*', '/']), by simp⟩
      · rw [← same tail, ← (Layout.block unclosed (.nothing (rest ++ '.' :: tail))).skip_eq]
        simp

end Unstopped

/-! ## Texts up to the end of a statement -/

/-- The text up to the full stop that ends a statement: unstopped, but for the word
that opens a declaration. -/
inductive UpToStop : List Char → Prop
  | unstopped {front : List Char} (unstopped : Unstopped front) : UpToStop front
  | declaration {front : List Char} (ends : beginsInName front = false)
      (unstopped : Unstopped front) : UpToStop (".decl".toList ++ front)

namespace UpToStop

theorem of_letters {letters front tail rest : List Char} (plain : Plain letters)
    (upTo : UpToStop front) (same : front ++ '.' :: tail = letters ++ rest) :
    ∃ front', front = letters ++ front' ∧ UpToStop front' ∧ rest = front' ++ '.' :: tail := by
  cases upTo with
  | unstopped unstopped =>
      obtain ⟨front', spelled, settled, behind⟩ := unstopped.of_letters plain same
      exact ⟨front', spelled, .unstopped settled, behind⟩
  | declaration ends unstopped =>
      cases letters with
      | nil => exact ⟨_, rfl, .declaration ends unstopped, same.symm⟩
      | cons c letters =>
          obtain rfl : '.' = c := (List.cons.inj same).1
          exact absurd List.mem_cons_self (plain '.' List.mem_cons_self)

theorem of_quote {rest : List Char} (upTo : UpToStop ('"' :: rest)) :
    ∃ interior behind, rest = interior ++ '"' :: behind ∧ Interior interior ∧ UpToStop behind := by
  generalize same : '"' :: rest = text at upTo
  cases upTo with
  | declaration => exact absurd (List.cons.inj same).1 (by decide)
  | unstopped unstopped =>
      subst same
      obtain ⟨interior, behind, spelled, isInterior, settled⟩ := unstopped.of_quote
      exact ⟨interior, behind, spelled, isInterior, .unstopped settled⟩

/-- Layout leaves a text up to the same full stop. -/
theorem skip_eq {front : List Char} (upTo : UpToStop front) :
    ∃ front', UpToStop front' ∧ front' <:+ front ∧
      ∀ tail, skip (front ++ '.' :: tail) = front' ++ '.' :: tail := by
  cases upTo with
  | unstopped unstopped =>
      obtain ⟨front', settled, suffix, skipped⟩ := unstopped.skip_eq
      exact ⟨front', .unstopped settled, suffix, skipped⟩
  | declaration ends unstopped =>
      refine ⟨_, .declaration ends unstopped, List.suffix_rfl, fun tail => ?_⟩
      exact Solid.skip_eq ⟨'.', _, rfl, by simp⟩

end UpToStop

/-! ## Recovery -/

namespace Recovery

theorem passCode_of_single (begun : Bool) {c : Char} (isPlain : c ∉ ['.', '"', '/'])
    (text : List Char) : passCode begun (c :: text) = passCode (begun || !Text.isBlank c) text := by
  simp only [List.mem_cons, List.not_mem_nil, or_false, not_or] at isPlain
  rw [passCode.eq_6] <;> simp_all

theorem passCode_of_blank (begun : Bool) {c : Char} (isBlank : c ∈ [' ', '\t', '\n', '\r'])
    (text : List Char) : passCode begun (c :: text) = passCode begun text := by
  have isPlain : c ∉ ['.', '"', '/'] ∧ Text.isBlank c = true := by
    simp only [List.mem_cons, List.not_mem_nil, or_false] at isBlank
    rcases isBlank with rfl | rfl | rfl | rfl <;> decide
  rw [passCode_of_single begun isPlain.1, isPlain.2, Bool.not_true, Bool.or_false]

theorem passCode_of_stop (begun : Bool) {text : List Char}
    (ends : "decl".toList.isPrefixOf text = false) : passCode begun ('.' :: text) = text := by
  rw [passCode, ends]
  rfl

/-- The word that opens a declaration does not end the one that it opens. -/
theorem passCode_of_keyword (text : List Char) :
    passCode false (".decl".toList ++ text) = passCode true ("decl".toList ++ text) := by
  have starts : "decl".toList.isPrefixOf ("decl".toList ++ text) = true :=
    List.isPrefixOf_iff_prefix.mpr ⟨text, rfl⟩
  exact passCode.eq_5 false ("decl".toList ++ text) |>.trans (by rw [if_pos starts]; rfl)

/-- A comment to the end of its line, as recovery passes it. -/
theorem passLine_append (begun : Bool) {comment : List Char}
    (inLine : ∀ c ∈ comment, endsLine c = false) (text : List Char) :
    passLine begun (comment ++ text) = passLine begun text := by
  induction comment with
  | nil => rfl
  | cons c comment ih =>
      have own : c ≠ '\n' ∧ c ≠ '\r' := by simpa [endsLine] using inLine c (by simp)
      rw [List.cons_append, passLine.eq_4 _ _ _ own.1 own.2]
      exact ih fun d member => inLine d (by simp [member])

theorem passLine_of_startsLine (begun : Bool) {text : List Char} (starts : StartsLine text) :
    passLine begun text = passCode begun text := by
  cases text with
  | nil => simp [passLine, passCode]
  | cons c text =>
      have isBlank := mem_blanks_of_endsLine (starts c rfl)
      have own : c = '\n' ∨ c = '\r' := by simpa [endsLine] using starts c rfl
      rw [passCode_of_blank begun isBlank]
      rcases own with rfl | rfl <;> simp [passLine]

/-- A comment that has to be closed, as recovery passes it. -/
theorem passBlock_append (begun : Bool) {comment : List Char} (unclosed : ¬ ['*', '/'] <:+: comment)
    (text : List Char) :
    passBlock begun (comment ++ '*' :: '/' :: text) = passCode begun text := by
  induction comment with
  | nil => simp [passBlock]
  | cons c comment ih =>
      have further : ¬ ['*', '/'] <:+: comment := fun inside =>
        unclosed (inside.trans (List.suffix_cons c comment).isInfix)
      rw [List.cons_append, passBlock.eq_3]
      · exact ih further
      · intro rest isStar starts
        cases comment with
        | nil => cases starts
        | cons d comment =>
            obtain ⟨rfl, -⟩ := List.cons.inj starts
            exact unclosed ⟨[], comment, by simp [isStar]⟩

/-- A string constant, as recovery passes it. -/
theorem passString_append {interior : List Char} (isInterior : Interior interior)
    (text : List Char) : passString (interior ++ '"' :: text) = passCode true text := by
  induction isInterior with
  | nil => simp [passString]
  | escaped _ ih => simp [passString, ih]
  | @plain c interior notQuote notBackslash _ ih =>
      rw [List.cons_append, passString.eq_5 _ _ (fun is _ => notBackslash is)
        (fun _ _ is _ => notBackslash is) (fun is => notQuote is), ih]

/-- **Recovery ends behind the full stop** that an unstopped text leads up to. -/
theorem passCode_append (begun : Bool) {front tail : List Char} (unstopped : Unstopped front)
    (ends : "decl".toList.isPrefixOf tail = false) :
    passCode begun (front ++ '.' :: tail) = tail := by
  induction unstopped generalizing begun with
  | nothing => exact passCode_of_stop begun ends
  | plain isPlain _ ih => rw [List.cons_append, passCode_of_single begun isPlain, ih]
  | @slash rest lone _ ih =>
      rw [List.cons_append, passCode.eq_6, ih]
      · intro behind _ starts
        exact (Unstopped.append_ne_of_lone lone _ behind).1 starts
      · intro behind _ starts
        exact (Unstopped.append_ne_of_lone lone _ behind).2 starts
      · decide
      · decide
  | string isInterior _ ih => simp [passCode, passString_append isInterior, ih]
  | @line comment rest c inLine lineEnd _ ih =>
      have starts : StartsLine (c :: (rest ++ '.' :: tail)) := by simpa [StartsLine] using lineEnd
      have spelled : '/' :: '/' :: (comment ++ c :: rest) ++ '.' :: tail =
          '/' :: '/' :: (comment ++ c :: (rest ++ '.' :: tail)) := by simp
      rw [spelled, passCode, passLine_append begun inLine, passLine_of_startsLine begun starts,
        passCode_of_blank begun (mem_blanks_of_endsLine lineEnd), ih]
  | block unclosed _ ih => simp [passCode, passBlock_append begun unclosed, ih]

/-- Letters are passed one by one. -/
theorem exists_passCode_append (begun : Bool) {letters : List Char} (plain : Plain letters)
    (rest : List Char) : ∃ begun', passCode begun (letters ++ rest) = passCode begun' rest := by
  induction letters generalizing begun with
  | nil => exact ⟨begun, rfl⟩
  | cons c letters ih =>
      rw [List.cons_append, passCode_of_single begun (plain c List.mem_cons_self)]
      exact ih _ fun d member => plain d (List.mem_cons_of_mem _ member)

/-- Layout is passed without a trace. -/
theorem passCode_of_layout {begun : Bool} {text rest : List Char} (layout : Layout text rest) :
    passCode begun text = passCode begun rest := by
  induction layout with
  | nothing => rfl
  | blank isBlank _ ih => rw [← ih, passCode_of_blank begun isBlank]
  | line inLine lineEnd _ ih =>
      rw [← ih, passCode, passLine_append begun inLine, passLine_of_startsLine begun lineEnd]
  | block unclosed _ ih => rw [← ih, passCode, passBlock_append begun unclosed]

end Recovery

end Datalog
