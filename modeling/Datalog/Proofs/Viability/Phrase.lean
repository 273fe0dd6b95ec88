import Datalog.Proofs.Grammar.Reading
import Datalog.Proofs.Viability.Form
import Datalog.Text.Place

/-!
# Phrases that are missed behind viable prefixes

While a text is being tried, what stands in front of the place that has been reached can
be completed to a text of the kind that is wanted.  The invariant is that a text of a form
is expected there (`Expects`): whatever is put in the place of the rest of the text, if
only it is of this form, the whole can be completed.  A form that is productive can be put
there, so a production that is missed is missed behind a viable prefix, and turning back
does no harm, because the trail names a place of the text and not the way that led there.

A phrase is viable for a form (`Viable`) if it is read as texts of this form and if what
is missed in it, where the form is expected, is missed behind a viable prefix.  Each way to
put phrases together keeps this.
-/

set_option autoImplicit false

namespace Datalog.Grammar

open Phrase Form

variable {α β γ : Type} {whole : List Char → Prop} {code front text stop start : List Char}
  {form form' first second : Form} {trail : Trail}

/-! ## Viable prefixes -/

/-- The prefix can be completed without digits to a text of the given kind. -/
def Completes (whole : List Char → Prop) (front : List Char) : Prop :=
  ∃ behind, Undigited behind ∧ whole (front ++ behind)

/-- What stands in front of the place that the trail names can be completed. -/
def Trail.Viable (whole : List Char → Prop) (code : List Char) (trail : Trail) : Prop :=
  Completes whole (Text.before code trail.remaining)

/-- A text of the given form can stand in the place of the text, up to a rest that is known. -/
def Expects (whole : List Char → Prop) (front text : List Char) (form : Form) : Prop :=
  ∃ rest, StartsLine rest ∧ Undigited rest ∧ ∀ ⦃other start : List Char⦄,
    Replaces other text → Layout other start → form start rest → whole (front ++ other)

namespace Expects

theorem mono (smaller : form ≤ form') (expects : Expects whole front text form') :
    Expects whole front text form := by
  obtain ⟨rest, starts, undigited, completes⟩ := expects
  exact ⟨rest, starts, undigited, fun other start replaces layout holds =>
    completes replaces layout (smaller _ _ holds)⟩

/-- **Where a productive form is expected, the prefix is viable.** -/
theorem completes (expects : Expects whole front text form) (productive : form.Productive) :
    Completes whole front := by
  obtain ⟨rest, starts, undigited, completes⟩ := expects
  obtain ⟨other, undigited', holds⟩ := productive starts undigited
  exact ⟨'\n' :: other, undigited_newline undigited',
    completes (.inr (startsLine_newline other)) (layout_newline other) holds⟩

/-- The first form of a sequence is expected where the sequence is. -/
theorem first_of_both (expects : Expects whole front text (both first second))
    (productive : second.Productive) : Expects whole front text first := by
  obtain ⟨rest, starts, undigited, completes⟩ := expects
  obtain ⟨next, undigited', holds'⟩ := productive starts undigited
  refine ⟨'\n' :: next, startsLine_newline next, undigited_newline undigited', ?_⟩
  intro other start replaces layout holds
  exact completes replaces layout ⟨_, next, holds, layout_newline next, holds'⟩

/-- Behind a text of the first form and layout, the second form is expected. -/
theorem second_of_both (expects : Expects whole front text (both first second))
    (firm : first.Firm text stop) (layout : Layout stop start) :
    ∃ passed, text = passed ++ start ∧ Expects whole (front ++ passed) start second := by
  obtain ⟨rest, starts, undigited, completes⟩ := expects
  obtain ⟨taken, rfl, holds⟩ := firm
  obtain ⟨between, rfl, blank⟩ := layout.firm
  refine ⟨taken ++ between, by simp, rest, starts, undigited, ?_⟩
  intro other next replaces layout' holds'
  have further := replaces.append between
  have sequence : both first second (taken ++ (between ++ other)) rest :=
    ⟨between ++ other, next, holds further, (blank replaces).trans layout', holds'⟩
  have completed := completes (further.append taken) (.nothing _) sequence
  simpa using completed

/-- Behind layout, one more text is expected where any number of them are. -/
theorem one_of_many (expects : Expects whole front text (many form))
    (layout : Layout text start) :
    ∃ passed, text = passed ++ start ∧ Expects whole (front ++ passed) start form := by
  obtain ⟨rest, starts, undigited, completes⟩ := expects
  obtain ⟨passed, rfl, blank⟩ := layout.firm
  refine ⟨passed, rfl, rest, starts, undigited, ?_⟩
  intro other next replaces layout' holds
  have repeats : many form (passed ++ other) rest :=
    .more ((blank replaces).trans layout') holds (.done (.nothing rest))
  have completed := completes (replaces.append passed) (.nothing _) repeats
  simpa using completed

/-- Behind one text, any number of others are expected. -/
theorem others_of_many (expects : Expects whole front text (many form))
    (layout : Layout text start) (firm : form.Firm start stop) :
    ∃ passed, text = passed ++ stop ∧ Expects whole (front ++ passed) stop (many form) := by
  obtain ⟨rest, starts, undigited, completes⟩ := expects
  obtain ⟨passed, rfl, blank⟩ := layout.firm
  obtain ⟨taken, rfl, holds⟩ := firm
  refine ⟨passed ++ taken, by simp, rest, starts, undigited, ?_⟩
  intro other next replaces layout' others
  have further := replaces.append taken
  have repeats : many form (passed ++ (taken ++ other)) rest :=
    .more (blank further) (holds replaces) (.of_layout layout' others)
  have completed := completes (further.append passed) (.nothing _) repeats
  simpa using completed

end Expects

/-! ## Viable phrases -/

/-- Whatever is missed where the form is expected is missed behind a viable prefix. -/
def MissesViably (phrase : Phrase α) (form : Form) : Prop :=
  ∀ ⦃whole : List Char → Prop⦄ ⦃code front text : List Char⦄ ⦃trail : Trail⦄,
    code = front ++ text → Expects whole front text form → trail.Viable whole code →
    (phrase.attempt text trail).2.Viable whole code

/-- A phrase that is read as texts of a form and misses nothing but behind viable prefixes. -/
structure Viable (phrase : Phrase α) (form : Form) : Prop where
  productive : form.Productive
  read : ∀ ⦃text rest : List Char⦄ ⦃a : α⦄, phrase.read text = some (a, rest) →
    form.Firm text rest
  attempt : MissesViably phrase form

namespace Viable

theorem mono {phrase : Phrase α} (smaller : form ≤ form') (viable : Viable phrase form) :
    Viable phrase form' where
  productive := viable.productive.mono smaller
  read _ _ _ found := (viable.read found).mono smaller
  attempt _ _ _ _ _ split expects := viable.attempt split (expects.mono smaller)

/-- A lexeme misses nothing by itself. -/
theorem lexeme {read : List Char → Option (α × List Char)} (productive : form.Productive)
    (firm : ∀ ⦃text rest : List Char⦄ ⦃a : α⦄, read text = some (a, rest) →
      form.Firm text rest) : Viable (Phrase.lexeme read) form where
  productive := productive
  read := firm
  attempt _ _ _ _ _ _ _ viable := viable

/-- **A production is missed where it is expected**, or something was missed inside it. -/
theorem named (production : Production) {phrase : Phrase α} (viable : Viable phrase form) :
    Viable (named production phrase) form := by
  refine ⟨viable.productive, viable.read, ?_⟩
  intro whole code front text trail split expects before
  have inner := viable.attempt split expects before
  rw [trail_named]
  split
  next => exact inner
  next =>
    simp only [Trail.miss]
    split_ifs with lone further
    · exact inner
    · rw [Trail.Viable, split, Text.before_append]
      exact expects.completes viable.productive
    · exact inner

theorem terminal (production : Production) {read : List Char → Option (α × List Char)}
    (productive : form.Productive) (firm : ∀ ⦃text rest : List Char⦄ ⦃a : α⦄,
      read text = some (a, rest) → form.Firm text rest) :
    Viable (Phrase.terminal production read) form :=
  (lexeme productive firm).named production

theorem map (f : α → β) {phrase : Phrase α} (viable : Viable phrase form) :
    Viable (f <$> phrase) form := by
  refine ⟨viable.productive, ?_, viable.attempt⟩
  intro text rest b read
  obtain ⟨a, found, -⟩ := (read_map_iff _ _ _ _ _).mp read
  exact viable.read found

theorem both (combine : α → β → γ) {phrase : Phrase α} {phrase' : Unit → Phrase β}
    (viable : Viable phrase first) (viable' : Viable (phrase' ()) second) :
    Viable (both combine phrase phrase') (Form.both first second) := by
  refine ⟨viable.productive.both viable'.productive, ?_, ?_⟩
  · intro text rest c read
    obtain ⟨a, middle, b, found, found', -⟩ := (read_both_iff _ _ _ _ _ _).mp read
    exact (viable.read found).both (layout_skip middle) (viable'.read found')
  · intro whole code front text trail split expects before
    have inner := viable.attempt split (expects.first_of_both viable'.productive) before
    rw [trail_both]
    split
    next => exact inner
    next a rest read =>
      obtain ⟨passed, rfl, expects'⟩ :=
        expects.second_of_both (viable.read read) (layout_skip rest)
      rw [← List.append_assoc] at split
      exact viable'.attempt split expects' inner

theorem orElse {phrase phrase' : Phrase α} (viable : Viable phrase form)
    (viable' : Viable phrase' form) : Viable (phrase <|> phrase') form := by
  refine ⟨viable.productive, ?_, ?_⟩
  · intro text rest a read
    rcases (read_orElse_iff _ _ _ _ _).mp read with found | ⟨-, found⟩
    · exact viable.read found
    · exact viable'.read found
  · intro whole code front text trail split expects before
    have inner := viable.attempt split expects before
    rw [trail_orElse]
    split
    next => exact inner
    next => exact viable'.attempt split expects inner

theorem maybe {phrase : Phrase α} (viable : Viable phrase form) :
    Viable (maybe phrase) (Form.maybe form) := by
  refine ⟨productive_maybe form, ?_, ?_⟩
  · intro text rest a? read
    rcases (read_maybe_iff _ _ _ _).mp read with ⟨a, found, -⟩ | ⟨-, -, rfl⟩
    · exact (viable.read found).maybe
    · exact firm_maybe_nothing rest
  · intro whole code front text trail split expects before
    rw [trail_maybe]
    exact viable.attempt split (expects.mono fun _ _ => .inl) before

theorem readMany {phrase : Phrase α} (viable : Viable phrase form) (limit : Nat)
    (text : List Char) : (Form.many form).Firm text (readMany phrase limit text).2 := by
  induction limit generalizing text with
  | zero => exact firm_many_nothing text
  | succ limit ih =>
      rw [Phrase.readMany]
      cases read : phrase.read (skip text) with
      | none => exact firm_many_nothing text
      | some found => exact .many (layout_skip text) (viable.read read) (ih found.2)

theorem attemptMany {phrase : Phrase α} (viable : Viable phrase form) (limit : Nat)
    (split : code = front ++ text) (expects : Expects whole front text (Form.many form))
    (before : trail.Viable whole code) :
    (attemptMany phrase limit text trail).2.Viable whole code := by
  induction limit generalizing front text trail with
  | zero => exact before
  | succ limit ih =>
      obtain ⟨passed, spelled, expects'⟩ := expects.one_of_many (layout_skip text)
      have split' : code = (front ++ passed) ++ skip text := by
        rw [split, List.append_assoc, ← spelled]
      have inner := viable.attempt split' expects' before
      rw [trail_attemptMany_succ]
      split
      next => exact inner
      next a rest read =>
        obtain ⟨taken, spelled', others⟩ :=
          expects.others_of_many (layout_skip text) (viable.read read)
        apply ih _ others inner
        rw [split, List.append_assoc, ← spelled']

theorem many {phrase : Phrase α} (viable : Viable phrase form) :
    Viable (many phrase) (Form.many form) := by
  refine ⟨productive_many form, ?_, ?_⟩
  · intro text rest as read
    have firm := viable.readMany text.length text
    rwa [(read_many_iff _ _ _ _).mp read] at firm
  · intro whole code front text trail split expects before
    exact viable.attemptMany text.length split expects before

/-! ### Sequences with signs -/

theorem seq {phrase : Phrase (α → β)} {phrase' : Phrase α} (viable : Viable phrase first)
    (viable' : Viable phrase' second) : Viable (phrase <*> phrase') (Form.both first second) :=
  viable.both _ viable'

theorem seqLeft {phrase : Phrase α} {phrase' : Phrase β} (viable : Viable phrase first)
    (viable' : Viable phrase' second) : Viable (phrase <* phrase') (Form.both first second) :=
  viable.both _ viable'

theorem seqRight {phrase : Phrase α} {phrase' : Phrase β} (viable : Viable phrase first)
    (viable' : Viable phrase' second) : Viable (phrase *> phrase') (Form.both first second) :=
  viable.both _ viable'

theorem token {spelling : String} (undigited : Undigited spelling.toList) :
    Viable (token spelling) (sign spelling) := by
  refine .lexeme (productive_of spelling undigited fun rest _ => rfl) ?_
  intro text rest nothing read
  exact firm_sign ((read_token_iff spelling text nothing rest).mp read)

theorem commaSeparated {phrase : Phrase α} (viable : Viable phrase form) :
    Viable (commaSeparated phrase) (separated form) := by
  have comma : Viable (Phrase.token ",") (sign ",") := token (by simp [Undigited])
  exact (viable.map _).seq (comma.seqRight viable).many

/-- Any number of phrases with commas between them, and signs around them. -/
theorem enclosed {phrase : Phrase α} (viable : Viable phrase form) (opening closing : String)
    (opens : Undigited opening.toList) (closes : Undigited closing.toList) :
    Viable (Phrase.token opening *> listOf phrase <* Phrase.token closing)
      (Form.enclosed opening closing form) := by
  have listed := viable.commaSeparated.maybe.map fun found => found.getD []
  exact ((token opens).seqRight listed).seqLeft (token closes)

end Viable

end Datalog.Grammar
