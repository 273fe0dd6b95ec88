import Datalog.Proofs.Grammar.Lexical

/-!
# Quoted text is read back

The interior that is written for a text is one that a string constant may have,
and it stands for the text.  The reverse does not hold: of several interiors that
stand for one text, only one is ever written.
-/

set_option autoImplicit false

namespace Datalog.Text

/-- A character that needs no backslash is written as it is. -/
theorem escape_cons_of_plain {c : Char} (plain : c ∉ ['"', '\\', '\n', '\t'])
    (rest : List Char) : escape (c :: rest) = c :: escape rest := by
  simp only [List.mem_cons, List.not_mem_nil, or_false, not_or] at plain
  obtain ⟨notQuote, notBackslash, notFeed, notTab⟩ := plain
  exact escape.eq_6 c rest notQuote notBackslash notFeed notTab

/-- **What is written for a text stands for the text.** -/
theorem unescape_escape (text : List Char) : unescape (escape text) = text := by
  induction text with
  | nil => rfl
  | cons c rest ih =>
      by_cases special : c ∈ ['"', '\\', '\n', '\t']
      · simp only [List.mem_cons, List.not_mem_nil, or_false] at special
        rcases special with rfl | rfl | rfl | rfl <;> simp [escape, unescape, ih]
      · rw [escape_cons_of_plain special, unescape.eq_5, ih]
        all_goals
          rintro _ rfl
          exact absurd special (by decide)

/-- **What is written for a text may stand between quotes.** -/
theorem interior_escape (text : List Char) : Grammar.Interior (escape text) := by
  induction text with
  | nil => exact .nil
  | cons c rest ih =>
      by_cases special : c ∈ ['"', '\\', '\n', '\t']
      · simp only [List.mem_cons, List.not_mem_nil, or_false] at special
        rcases special with rfl | rfl | rfl | rfl <;> exact .escaped ih
      · rw [escape_cons_of_plain special]
        simp only [List.mem_cons, List.not_mem_nil, or_false, not_or] at special
        exact .plain special.1 special.2.1 ih

end Datalog.Text
