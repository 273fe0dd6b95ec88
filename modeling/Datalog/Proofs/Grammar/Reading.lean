import Datalog.Grammar.Phrase
import Mathlib.Data.List.Basic

/-!
# What the combinators of phrases read

One equivalence for each way to put phrases together: when the whole is read with
a given value and a given rest, in terms of what its parts read.  Proofs about
phrases go through these and never through the readers themselves.
-/

set_option autoImplicit false

namespace Datalog.Grammar.Phrase

variable {α β γ : Type}

/-! ## Single elements -/

@[simp]
theorem read_named (production : Production) (phrase : Phrase α) :
    (named production phrase).read = phrase.read := rfl

theorem read_token_iff (spelling : String) (text : List Char) (nothing : Unit) (rest : List Char) :
    (token spelling).read text = some (nothing, rest) ↔ text = spelling.toList ++ rest := by
  change (spelling.toList.isPrefixOf? text).map _ = some (nothing, rest) ↔ _
  rw [Option.map_eq_some_iff]
  constructor
  · rintro ⟨rest', found, same⟩
    obtain rfl : rest' = rest := congrArg Prod.snd same
    exact (List.isPrefixOf?_eq_some_iff_append_eq.mp found).symm
  · intro same
    exact ⟨rest, List.isPrefixOf?_eq_some_iff_append_eq.mpr same.symm, rfl⟩

theorem read_absent_iff (c : Char) (text : List Char) (nothing : Unit) (rest : List Char) :
    (absent c).read text = some (nothing, rest) ↔ text.head? ≠ some c ∧ rest = text := by
  change (if text.head? = some c then none else some ((), text)) = some (nothing, rest) ↔ _
  by_cases next : text.head? = some c
  · simp [next]
  · simp [next, eq_comm]

/-! ## Sequences -/

theorem read_map_iff (f : α → β) (phrase : Phrase α) (text : List Char) (b : β)
    (rest : List Char) :
    (f <$> phrase).read text = some (b, rest) ↔
      ∃ a, phrase.read text = some (a, rest) ∧ f a = b := by
  rw [read_map, Option.map_eq_some_iff]
  constructor
  · rintro ⟨⟨a, rest'⟩, found, same⟩
    obtain ⟨rfl, rfl⟩ := Prod.mk.inj same
    exact ⟨a, found, rfl⟩
  · rintro ⟨a, found, rfl⟩
    exact ⟨(a, rest), found, rfl⟩

theorem read_both_iff (combine : α → β → γ) (first : Phrase α) (second : Unit → Phrase β)
    (text : List Char) (c : γ) (rest : List Char) :
    (both combine first second).read text = some (c, rest) ↔
      ∃ a middle b, first.read text = some (a, middle) ∧
        (second ()).read (skip middle) = some (b, rest) ∧ combine a b = c := by
  rw [read_both, Option.bind_eq_some_iff]
  constructor
  · rintro ⟨⟨a, middle⟩, found, later⟩
    obtain ⟨⟨b, rest'⟩, found', same⟩ := Option.map_eq_some_iff.mp later
    obtain ⟨rfl, rfl⟩ := Prod.mk.inj same
    exact ⟨a, middle, b, found, found', rfl⟩
  · rintro ⟨a, middle, b, found, found', rfl⟩
    refine ⟨(a, middle), found, ?_⟩
    simp only [found', Option.map_some]

theorem read_seq_iff (first : Phrase (α → β)) (second : Phrase α) (text : List Char) (b : β)
    (rest : List Char) :
    (first <*> second).read text = some (b, rest) ↔
      ∃ f middle a, first.read text = some (f, middle) ∧
        second.read (skip middle) = some (a, rest) ∧ f a = b :=
  read_both_iff (fun f a => f a) first (fun _ => second) text b rest

theorem read_seqLeft_iff (first : Phrase α) (second : Phrase β) (text : List Char) (a : α)
    (rest : List Char) :
    (first <* second).read text = some (a, rest) ↔
      ∃ middle b, first.read text = some (a, middle) ∧
        second.read (skip middle) = some (b, rest) := by
  refine (read_both_iff (fun a _ => a) first (fun _ => second) text a rest).trans ?_
  constructor
  · rintro ⟨a, middle, b, found, found', rfl⟩
    exact ⟨middle, b, found, found'⟩
  · rintro ⟨middle, b, found, found'⟩
    exact ⟨a, middle, b, found, found', rfl⟩

theorem read_seqRight_iff (first : Phrase α) (second : Phrase β) (text : List Char) (b : β)
    (rest : List Char) :
    (first *> second).read text = some (b, rest) ↔
      ∃ middle a, first.read text = some (a, middle) ∧
        second.read (skip middle) = some (b, rest) := by
  refine (read_both_iff (fun _ b => b) first (fun _ => second) text b rest).trans ?_
  constructor
  · rintro ⟨a, middle, b, found, found', rfl⟩
    exact ⟨middle, a, found, found'⟩
  · rintro ⟨middle, a, found, found'⟩
    exact ⟨a, middle, b, found, found', rfl⟩

/-! ## Choices -/

theorem read_orElse_iff (first second : Phrase α) (text : List Char) (a : α)
    (rest : List Char) :
    (first <|> second).read text = some (a, rest) ↔
      first.read text = some (a, rest) ∨
        first.read text = none ∧ second.read text = some (a, rest) := by
  rw [read_orElse, Option.or_eq_some_iff]

theorem read_maybe_iff (phrase : Phrase α) (text : List Char) (a? : Option α)
    (rest : List Char) :
    (maybe phrase).read text = some (a?, rest) ↔
      (∃ a, phrase.read text = some (a, rest) ∧ a? = some a) ∨
        phrase.read text = none ∧ a? = none ∧ rest = text := by
  simp only [maybe]
  cases phrase.read text with
  | none => simp [eq_comm]
  | some found =>
      obtain ⟨a, left⟩ := found
      simp only [Option.some.injEq, Prod.mk.injEq, reduceCtorEq, false_and, or_false]
      constructor
      · rintro ⟨rfl, rfl⟩
        exact ⟨a, ⟨rfl, rfl⟩, rfl⟩
      · rintro ⟨b, ⟨rfl, rfl⟩, rfl⟩
        exact ⟨rfl, rfl⟩

/-! ## Repetitions -/

theorem read_many_iff (phrase : Phrase α) (text : List Char) (as : List α)
    (rest : List Char) :
    (many phrase).read text = some (as, rest) ↔
      readMany phrase text.length text = (as, rest) := by
  change some (readMany phrase text.length text) = some (as, rest) ↔ _
  rw [Option.some.injEq]

theorem read_commaSeparated_iff (phrase : Phrase α) (text : List Char) (as : List α)
    (rest : List Char) :
    (commaSeparated phrase).read text = some (as, rest) ↔
      ∃ a middle others, phrase.read text = some (a, middle) ∧
        readMany (token "," *> phrase) (skip middle).length (skip middle) = (others, rest) ∧
        as = a :: others := by
  refine (read_seq_iff _ _ text as rest).trans ?_
  constructor
  · rintro ⟨f, middle, others, first, found, rfl⟩
    obtain ⟨a, item, rfl⟩ := (read_map_iff _ _ _ _ _).mp first
    exact ⟨a, middle, others, item, (read_many_iff _ _ _ _).mp found, rfl⟩
  · rintro ⟨a, middle, others, first, found, rfl⟩
    exact ⟨List.cons a, middle, others, (read_map_iff _ _ _ _ _).mpr ⟨a, first, rfl⟩,
      (read_many_iff _ _ _ _).mpr found, rfl⟩

theorem read_listOf_iff (phrase : Phrase α) (text : List Char) (as : List α)
    (rest : List Char) :
    (listOf phrase).read text = some (as, rest) ↔
      (commaSeparated phrase).read text = some (as, rest) ∨
        (commaSeparated phrase).read text = none ∧ as = [] ∧ rest = text := by
  refine (read_map_iff _ _ text as rest).trans ?_
  simp only [read_maybe_iff]
  constructor
  · rintro ⟨_, ⟨as, found, rfl⟩ | ⟨refused, rfl, rfl⟩, rfl⟩
    · exact .inl found
    · exact .inr ⟨refused, rfl, rfl⟩
  · rintro (found | ⟨refused, rfl, rfl⟩)
    · exact ⟨some as, .inl ⟨as, found, rfl⟩, rfl⟩
    · exact ⟨none, .inr ⟨refused, rfl, rfl⟩, rfl⟩

/-- Any number of phrases with commas between them, and signs around them. -/
theorem read_enclosed_iff (opening closing : String) (phrase : Phrase α) (text : List Char)
    (as : List α) (rest : List Char) :
    (token opening *> listOf phrase <* token closing).read text = some (as, rest) ↔
      ∃ inner stop, text = opening.toList ++ inner ∧
        (listOf phrase).read (skip inner) = some (as, stop) ∧
        skip stop = closing.toList ++ rest := by
  simp only [read_seqLeft_iff, read_seqRight_iff, read_token_iff]
  constructor
  · rintro ⟨stop, -, ⟨inner, -, opens, found⟩, closes⟩
    exact ⟨inner, stop, opens, found, closes⟩
  · rintro ⟨inner, stop, opens, found, closes⟩
    exact ⟨stop, (), ⟨inner, (), opens, found⟩, closes⟩

end Datalog.Grammar.Phrase
