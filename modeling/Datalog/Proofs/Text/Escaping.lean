import Datalog.Proofs.Text.Quoted

/-!
# What is written between quotes

A quote closes a string constant unless a backslash takes it along, and whether one
does is told by the number of backslashes in front of it: they take each other along
in pairs, so a quote stands for itself exactly behind an odd number of them.  Every
quote in an interior stands behind an odd number (`quotesEscaped_of_interior`), and the
interiors that are written hold neither a line feed nor a tab (`ne_of_mem_escape`).

So what is written for a text is read back as the text, up to its own closing quote and
no further, whatever comes behind it.  An interior that was not written this way, with a
backslash in front of any character or with characters that are never written, stands for
a text as well, and what is written for that text stands for it again
(`quoted_text_read_in_context`).
-/

set_option autoImplicit false

namespace Datalog.Text

/-- Every quote stands behind an odd number of backslashes. -/
def QuotesEscaped (text : List Char) : Prop :=
  ∀ (front rest : List Char) (count : Nat),
    text = front ++ (List.replicate count '\\' ++ '"' :: rest) →
      front.getLast? ≠ some '\\' → count % 2 = 1

/-- A text that ends with a character still does with another one in front. -/
theorem getLast?_ne_of_cons {c last : Char} {text : List Char}
    (other : (c :: text).getLast? ≠ some last) : text.getLast? ≠ some last := by
  intro ends
  rw [List.getLast?_cons, ends] at other
  exact other rfl

/-- **In an interior every quote stands behind an odd number of backslashes.** -/
theorem quotesEscaped_of_interior {interior : List Char}
    (isInterior : Grammar.Interior interior) : QuotesEscaped interior := by
  induction isInterior with
  | nil =>
      intro front rest count same
      simp at same
  | @escaped c behind _ ih =>
      intro front rest count same other
      match front, count with
      | [], 0 => simp at same
      | [], 1 => rfl
      | [], count + 2 =>
          -- the first two backslashes are a pair
          simp only [List.replicate_succ, List.nil_append, List.cons_append, List.cons.injEq]
            at same
          have odd := ih [] rest count same.2.2 (by simp)
          omega
      | [d], count =>
          obtain ⟨rfl, -⟩ := List.cons.inj same
          exact absurd rfl other
      | d :: e :: front, count =>
          simp only [List.cons_append, List.cons.injEq] at same
          exact ih front rest count same.2.2 (getLast?_ne_of_cons (getLast?_ne_of_cons other))
  | @plain c behind notQuote notBackslash _ ih =>
      intro front rest count same other
      match front, count with
      | [], 0 => exact absurd (List.cons.inj same).1 notQuote
      | [], count + 1 =>
          rw [List.replicate_succ] at same
          exact absurd (List.cons.inj same).1 notBackslash
      | d :: front, count =>
          exact ih front rest count (List.cons.inj same).2 (getLast?_ne_of_cons other)

/-- Neither a line feed nor a tab is ever written between quotes. -/
theorem ne_of_mem_escape {text : List Char} {c : Char} (member : c ∈ escape text) :
    c ≠ '\n' ∧ c ≠ '\t' := by
  induction text with
  | nil => cases member
  | cons d rest ih =>
      by_cases special : d ∈ ['"', '\\', '\n', '\t']
      · -- a backslash and a letter or sign of its own, and then the rest
        have written : ∃ sign ∈ ['"', '\\', 'n', 't'],
            escape (d :: rest) = '\\' :: sign :: escape rest := by
          simp only [List.mem_cons, List.not_mem_nil, or_false] at special
          rcases special with rfl | rfl | rfl | rfl
          · exact ⟨'"', by decide, rfl⟩
          · exact ⟨'\\', by decide, rfl⟩
          · exact ⟨'n', by decide, rfl⟩
          · exact ⟨'t', by decide, rfl⟩
        obtain ⟨sign, listed, same⟩ := written
        rw [same, List.mem_cons, List.mem_cons] at member
        rcases member with rfl | rfl | member
        · decide
        · simp only [List.mem_cons, List.not_mem_nil, or_false] at listed
          rcases listed with rfl | rfl | rfl | rfl <;> decide
        · exact ih member
      · rw [escape_cons_of_plain special, List.mem_cons] at member
        rcases member with rfl | member
        · constructor <;> rintro rfl <;> exact special (by decide)
        · exact ih member

/-- **Writing and reading between quotes are inverse in any context.**  What is written
for a text is read up to its own closing quote, whatever stands behind, and stands for
the text.  Whatever an interior stands for is written without a raw line feed or tab and
with every quote escaped, and so it stands for the same text. -/
theorem quoted_text_read_in_context :
    (∀ text rest : List Char,
      Grammar.readInterior (escape text ++ '"' :: rest) = some (escape text, rest) ∧
      unescape (escape text) = text ∧
      Grammar.string.read (quote text ++ rest) = some (String.ofList text, rest)) ∧
    ∀ interior : List Char,
      unescape (escape (unescape interior)) = unescape interior ∧
      '\n' ∉ escape (unescape interior) ∧ '\t' ∉ escape (unescape interior) ∧
      QuotesEscaped (escape (unescape interior)) := by
  refine ⟨fun text rest => ⟨?_, unescape_escape text, ?_⟩, fun interior => ⟨?_, ?_, ?_, ?_⟩⟩
  · exact Grammar.readInterior_append (interior_escape text) rest
  · have read := Grammar.readString_append (interior_escape text) rest
    rw [unescape_escape] at read
    rw [quote, List.cons_append, List.append_assoc]
    exact read
  · exact unescape_escape (unescape interior)
  · exact fun raw => (ne_of_mem_escape raw).1 rfl
  · exact fun raw => (ne_of_mem_escape raw).2 rfl
  · exact quotesEscaped_of_interior (interior_escape (unescape interior))

/-- A letter without a short form keeps its backslash, which is then written as two. -/
example : escape (unescape ['\\', 'q', '\n']) = ['\\', '\\', 'q', '\\', 'n'] := by decide

end Datalog.Text
