import Datalog.Grammar.Layout
import Datalog.Grammar.Trail

/-!
# Phrases

A phrase of the language is given by the way it is read: it takes as much as it
can from the start of a text and answers with a value and what is left, or it
refuses the text.  Choices are ordered, repetitions are greedy, and neither is
reconsidered once it has been made.  Layout is allowed between the elements of a
sequence.

A phrase can be read in two ways.  `Phrase.read` only answers.  `Phrase.attempt`
also keeps a trail of what was missed, and is used to explain a refusal.  The
trail never has a say in the answer, and this is part of what a phrase is.  Where the
trail of a composed phrase leads follows from the trails of its parts and from what they
answer (`trail_named`, `trail_both`, `trail_orElse`, `trail_maybe`).
-/

set_option autoImplicit false

namespace Datalog.Grammar

/-- A piece of the grammar whose values are of type `α`. -/
structure Phrase (α : Type) where
  /-- Reads the phrase at the start of a text. -/
  read : List Char → Option (α × List Char)
  /-- Reads the phrase and keeps a trail of what was missed. -/
  attempt : List Char → Trail → Option (α × List Char) × Trail
  attempt_fst : ∀ text trail, (attempt text trail).1 = read text

namespace Phrase

variable {α β γ : Type}

/-! ## Single elements -/

/-- A phrase that is read without looking for productions inside it. -/
def lexeme (read : List Char → Option (α × List Char)) : Phrase α where
  read := read
  attempt text trail := (read text, trail)
  attempt_fst _ _ := rfl

/-- Nothing is such a phrase. -/
def never : Phrase α := lexeme fun _ => none

/-- The given characters. -/
def token (spelling : String) : Phrase Unit :=
  lexeme fun text => (spelling.toList.isPrefixOf? text).map fun rest => ((), rest)

/-- The empty phrase, in front of anything but the given character. -/
def absent (c : Char) : Phrase Unit :=
  lexeme fun text => if text.head? = some c then none else some ((), text)

/-- A phrase that is missed under a name of its own. -/
def named (production : Production) (phrase : Phrase α) : Phrase α where
  read := phrase.read
  attempt text trail :=
    match phrase.attempt text trail with
    | (some found, inside) => (some found, inside)
    | (none, inside) => (none, trail.miss production text.length inside)
  attempt_fst text trail := by
    have same := phrase.attempt_fst text trail
    split <;> simp_all

/-- A phrase with a name is recorded where it is refused. -/
theorem trail_named (production : Production) (phrase : Phrase α) (text : List Char)
    (trail : Trail) :
    ((named production phrase).attempt text trail).2 =
      match phrase.read text with
      | some _ => (phrase.attempt text trail).2
      | none => trail.miss production text.length (phrase.attempt text trail).2 := by
  rw [← phrase.attempt_fst text trail]
  simp only [named]
  obtain ⟨_ | found, inside⟩ := phrase.attempt text trail <;> rfl

/-- A lexeme that is missed under a name of its own. -/
def terminal (production : Production) (read : List Char → Option (α × List Char)) : Phrase α :=
  named production (lexeme read)

/-- The end of the text. -/
def endOfInput : Phrase Unit :=
  terminal .endOfInput fun text => if text.isEmpty then some ((), text) else none

/-! ## Sequences -/

/-- A phrase with layout in front of it. -/
def afterLayout (phrase : Phrase α) : Phrase α where
  read text := phrase.read (skip text)
  attempt text trail := phrase.attempt (skip text) trail
  attempt_fst text trail := phrase.attempt_fst (skip text) trail

/-- Two phrases with layout between them. -/
def both (combine : α → β → γ) (first : Phrase α) (second : Unit → Phrase β) : Phrase γ where
  read text :=
    match first.read text with
    | none => none
    | some (a, rest) =>
      match (second ()).read (skip rest) with
      | none => none
      | some (b, rest) => some (combine a b, rest)
  attempt text trail :=
    match first.attempt text trail with
    | (none, trail) => (none, trail)
    | (some (a, rest), trail) =>
      match (second ()).attempt (skip rest) trail with
      | (none, trail) => (none, trail)
      | (some (b, rest), trail) => (some (combine a b, rest), trail)
  attempt_fst text trail := by
    have same := first.attempt_fst text trail
    split
    next heq => simp [← same, heq]
    next a rest trail' heq =>
      have same' := (second ()).attempt_fst (skip rest) trail'
      simp only [← same, heq]
      split
      next heq' => simp [← same', heq']
      next heq' => simp [← same', heq']

instance : Functor Phrase where
  map f phrase :=
    { read := fun text => (phrase.read text).map fun (a, rest) => (f a, rest)
      attempt := fun text trail =>
        let (found, trail) := phrase.attempt text trail
        (found.map fun (a, rest) => (f a, rest), trail)
      attempt_fst := fun text trail => by simp [phrase.attempt_fst text trail] }

instance : Seq Phrase := ⟨both fun f a => f a⟩

instance : SeqLeft Phrase := ⟨both fun a _ => a⟩

instance : SeqRight Phrase := ⟨both fun _ b => b⟩

theorem read_map (f : α → β) (phrase : Phrase α) (text : List Char) :
    (f <$> phrase).read text = (phrase.read text).map fun (a, rest) => (f a, rest) := rfl

/-- Two phrases are read one after the other, with the layout between them skipped. -/
theorem read_both (combine : α → β → γ) (first : Phrase α) (second : Unit → Phrase β)
    (text : List Char) :
    (both combine first second).read text =
      (first.read text).bind fun (a, rest) =>
        ((second ()).read (skip rest)).map fun (b, rest) => (combine a b, rest) := by
  simp only [both]
  split
  next heq => simp [heq]
  next heq =>
    split
    next heq' => simp [heq, heq']
    next heq' => simp [heq, heq']

/-- What comes second is attempted behind what was read first and behind layout. -/
theorem trail_both (combine : α → β → γ) (first : Phrase α) (second : Unit → Phrase β)
    (text : List Char) (trail : Trail) :
    ((both combine first second).attempt text trail).2 =
      match first.read text with
      | none => (first.attempt text trail).2
      | some (_, rest) => ((second ()).attempt (skip rest) (first.attempt text trail).2).2 := by
  rw [← first.attempt_fst text trail]
  simp only [both]
  obtain ⟨_ | ⟨a, rest⟩, inside⟩ := first.attempt text trail
  · rfl
  · simp only
    obtain ⟨_ | ⟨b, rest'⟩, inside'⟩ := (second ()).attempt (skip rest) inside <;> rfl

/-! ## Choices -/

/-- The first phrase, or the second one where the first one is refused. -/
def either (first : Phrase α) (second : Unit → Phrase α) : Phrase α where
  read text :=
    match first.read text with
    | some found => some found
    | none => (second ()).read text
  attempt text trail :=
    match first.attempt text trail with
    | (some found, trail) => (some found, trail)
    | (none, trail) => (second ()).attempt text trail
  attempt_fst text trail := by
    have same := first.attempt_fst text trail
    split
    next heq => simp [← same, heq]
    next heq => simp [← same, heq, (second ()).attempt_fst]

instance : OrElse (Phrase α) := ⟨either⟩

/-- The second phrase is read only where the first one is refused. -/
theorem read_orElse (first second : Phrase α) (text : List Char) :
    (first <|> second).read text = (first.read text).or (second.read text) := by
  change (either first fun _ => second).read text = _
  simp only [either]
  split <;> simp_all

/-- The second phrase is attempted only where the first one is refused. -/
theorem trail_orElse (first second : Phrase α) (text : List Char) (trail : Trail) :
    ((first <|> second).attempt text trail).2 =
      match first.read text with
      | some _ => (first.attempt text trail).2
      | none => (second.attempt text (first.attempt text trail).2).2 := by
  change ((either first fun _ => second).attempt text trail).2 = _
  rw [← first.attempt_fst text trail]
  simp only [either]
  obtain ⟨_ | found, inside⟩ := first.attempt text trail <;> rfl

/-- A phrase that may be left out. -/
def maybe (phrase : Phrase α) : Phrase (Option α) where
  read text :=
    match phrase.read text with
    | some (a, rest) => some (some a, rest)
    | none => some (none, text)
  attempt text trail :=
    match phrase.attempt text trail with
    | (some (a, rest), trail) => (some (some a, rest), trail)
    | (none, trail) => (some (none, text), trail)
  attempt_fst text trail := by
    have same := phrase.attempt_fst text trail
    split
    next heq => simp [← same, heq]
    next heq => simp [← same, heq]

@[simp] theorem trail_maybe (phrase : Phrase α) (text : List Char) (trail : Trail) :
    ((maybe phrase).attempt text trail).2 = (phrase.attempt text trail).2 := by
  simp only [maybe]
  obtain ⟨_ | ⟨a, rest⟩, inside⟩ := phrase.attempt text trail <;> rfl

/-! ## Repetitions -/

/-- Reads a phrase at most the given number of times, with layout between. -/
def readMany (phrase : Phrase α) : Nat → List Char → List α × List Char
  | 0, text => ([], text)
  | limit + 1, text =>
    match phrase.read (skip text) with
    | none => ([], text)
    | some (a, rest) =>
      let (as, rest) := readMany phrase limit rest
      (a :: as, rest)

/-- Attempts a phrase at most the given number of times, with layout between. -/
def attemptMany (phrase : Phrase α) : Nat → List Char → Trail → (List α × List Char) × Trail
  | 0, text, trail => (([], text), trail)
  | limit + 1, text, trail =>
    match phrase.attempt (skip text) trail with
    | (none, trail) => (([], text), trail)
    | (some (a, rest), trail) =>
      let ((as, rest), trail) := attemptMany phrase limit rest trail
      ((a :: as, rest), trail)

theorem attemptMany_fst (phrase : Phrase α) (limit : Nat) (text : List Char) (trail : Trail) :
    (attemptMany phrase limit text trail).1 = readMany phrase limit text := by
  induction limit generalizing text trail with
  | zero => rfl
  | succ limit ih =>
    have same := phrase.attempt_fst (skip text) trail
    unfold attemptMany readMany
    split
    next heq => simp [← same, heq]
    next heq => simp [← same, heq, ih]

/-- A repetition goes on behind what was read last. -/
theorem trail_attemptMany_succ (phrase : Phrase α) (limit : Nat) (text : List Char)
    (trail : Trail) :
    (attemptMany phrase (limit + 1) text trail).2 =
      match phrase.read (skip text) with
      | none => (phrase.attempt (skip text) trail).2
      | some (_, rest) => (attemptMany phrase limit rest (phrase.attempt (skip text) trail).2).2 := by
  rw [← phrase.attempt_fst (skip text) trail]
  simp only [attemptMany]
  obtain ⟨_ | ⟨a, rest⟩, inside⟩ := phrase.attempt (skip text) trail <;> rfl

/-- As many repetitions of a phrase as there are, with layout in front of each.
Every repetition takes a character at least, so the text is long enough to count
them. -/
def many (phrase : Phrase α) : Phrase (List α) where
  read text := some (readMany phrase text.length text)
  attempt text trail :=
    let (found, trail) := attemptMany phrase text.length text trail
    (some found, trail)
  attempt_fst text trail := by simp [attemptMany_fst]

/-- One or more phrases with commas between them. -/
def commaSeparated (phrase : Phrase α) : Phrase (List α) :=
  List.cons <$> phrase <*> many (token "," *> phrase)

/-- Any number of phrases with commas between them. -/
def listOf (phrase : Phrase α) : Phrase (List α) :=
  (fun found => found.getD []) <$> maybe (commaSeparated phrase)

/-! ## Recursion -/

/-- A phrase that is looked at only when it is read. -/
def defer (phrase : Unit → Phrase α) : Phrase α where
  read text := (phrase ()).read text
  attempt text trail := (phrase ()).attempt text trail
  attempt_fst text trail := (phrase ()).attempt_fst text trail

/-- A phrase that may contain itself, given by its contents.  Whatever contains
itself is longer than what it contains, so the text is long enough to count the
levels. -/
def nested (contents : Phrase α → Phrase α) : Nat → Phrase α
  | 0 => never
  | depth + 1 => contents (defer fun _ => nested contents depth)

/-- The phrase that contains itself in the given way. -/
def recursive (contents : Phrase α → Phrase α) : Phrase α where
  read text := (nested contents (text.length + 1)).read text
  attempt text trail := (nested contents (text.length + 1)).attempt text trail
  attempt_fst text trail := (nested contents (text.length + 1)).attempt_fst text trail

end Phrase

end Datalog.Grammar
