import Datalog.Proofs.Isolation.Lexeme
import Datalog.Proofs.Segment.Progress

/-!
# Faults lie in front of where reading goes on

Recovery knows nothing of the grammar: it looks for a full stop or for the keyword of a
declaration outside string constants and comments.  Yet no phrase is ever read beyond
the place that recovery finds, and nothing is missed behind it, whatever the text is.
The invariant is that recovery, begun at the place where a phrase is tried, still ends
at the same place (`Leads`): layout, names, numerals, string constants and signs keep
it, because recovery passes each of them as a whole.  Only the keyword of the declaration
itself has to be met with nothing passed before it.
-/

set_option autoImplicit false

namespace Datalog

open Grammar Phrase

variable {α β γ : Type} {stop text : List Char}

/-! ## Where recovery leads -/

/-- Recovery leads from the text to the stop, whatever it has passed before. -/
def Recovery.Leads (stop text : List Char) : Prop := ∃ begun, passCode begun text = stop

namespace Recovery.Leads

theorem length_le (leads : Leads stop text) : stop.length ≤ text.length := by
  obtain ⟨begun, rfl⟩ := leads
  exact (passCode_suffix begun text).length_le

/-- Recovery leads on from behind the layout. -/
theorem skip (leads : Leads stop text) : Leads stop (Grammar.skip text) := by
  obtain ⟨begun, rfl⟩ := leads
  exact ⟨begun, (passCode_of_layout (layout_skip text)).symm⟩

/-- Recovery leads on from behind letters that it passes one by one. -/
theorem of_append {letters rest : List Char} (plain : Plain letters)
    (leads : Leads stop (letters ++ rest)) : Leads stop rest := by
  obtain ⟨begun, rfl⟩ := leads
  obtain ⟨begun', passed⟩ := exists_passCode_append begun plain rest
  exact ⟨begun', passed.symm⟩

/-- Recovery leads on from behind a string constant. -/
theorem of_quoted {interior rest : List Char} (isInterior : Interior interior)
    (leads : Leads stop ('"' :: (interior ++ '"' :: rest))) : Leads stop rest := by
  obtain ⟨begun, rfl⟩ := leads
  refine ⟨true, ?_⟩
  rw [passCode, passString_append isInterior]

end Recovery.Leads

open Recovery (Leads)

/-! ## Phrases that heed a stop -/

/-- Nothing is missed behind the stop. -/
def MissesUpTo (stop text : List Char) (phrase : Phrase α) : Prop :=
  ∀ trail, stop.length ≤ trail.remaining →
    stop.length ≤ (phrase.attempt text trail).2.remaining

/-- A phrase is neither read beyond the stop nor is anything missed there. -/
structure HeedsAt (stop text : List Char) (phrase : Phrase α) : Prop where
  read : ∀ ⦃rest : List Char⦄ ⦃a : α⦄, phrase.read text = some (a, rest) → Leads stop rest
  attempt : MissesUpTo stop text phrase

/-- A phrase heeds every stop that recovery leads to from where it begins. -/
def Heeds (phrase : Phrase α) : Prop :=
  ∀ ⦃stop text : List Char⦄, Leads stop text → HeedsAt stop text phrase

theorem HeedsAt.lexeme {read : List Char → Option (α × List Char)}
    (left : ∀ {rest : List Char} {a : α}, read text = some (a, rest) → Leads stop rest) :
    HeedsAt stop text (Phrase.lexeme read) :=
  ⟨fun _ _ => left, fun _ before => before⟩

theorem MissesUpTo.named (production : Production) {phrase : Phrase α}
    (misses : MissesUpTo stop text phrase) (reach : stop.length ≤ text.length) :
    MissesUpTo stop text (named production phrase) := by
  intro trail before
  have inner := misses trail before
  rw [trail_named]
  split
  next => exact inner
  next => exact le_remaining_miss production trail reach inner

theorem HeedsAt.named (production : Production) {phrase : Phrase α}
    (heeds : HeedsAt stop text phrase) (reach : stop.length ≤ text.length) :
    HeedsAt stop text (named production phrase) :=
  ⟨heeds.read, heeds.attempt.named production reach⟩

theorem MissesUpTo.map (f : α → β) {phrase : Phrase α} (misses : MissesUpTo stop text phrase) :
    MissesUpTo stop text (f <$> phrase) := misses

theorem HeedsAt.map (f : α → β) {phrase : Phrase α} (heeds : HeedsAt stop text phrase) :
    HeedsAt stop text (f <$> phrase) := by
  refine ⟨?_, heeds.attempt.map f⟩
  intro rest b read
  obtain ⟨a, found, -⟩ := (read_map_iff _ _ _ _ _).mp read
  exact heeds.read found

/-- What comes second is tried behind what was read first and behind layout. -/
theorem MissesUpTo.both (combine : α → β → γ) {first : Phrase α} {second : Unit → Phrase β}
    (heeds : HeedsAt stop text first)
    (misses : ∀ ⦃rest : List Char⦄, Leads stop rest → MissesUpTo stop rest (second ())) :
    MissesUpTo stop text (both combine first second) := by
  intro trail before
  have inner := heeds.attempt trail before
  rw [trail_both]
  split
  next => exact inner
  next a rest read => exact misses (heeds.read read).skip _ inner

/-- **A sequence heeds a stop** if its first element does and the second one heeds
every stop. -/
theorem HeedsAt.both (combine : α → β → γ) {first : Phrase α} {second : Unit → Phrase β}
    (heeds : HeedsAt stop text first) (heeds' : Heeds (second ())) :
    HeedsAt stop text (both combine first second) := by
  constructor
  · intro rest c read
    obtain ⟨a, middle, b, found, found', -⟩ := (read_both_iff _ _ _ _ _ _).mp read
    exact (heeds' (heeds.read found).skip).read found'
  · exact .both combine heeds fun _ leads => (heeds' leads).attempt

theorem MissesUpTo.orElse {first second : Phrase α} (misses : MissesUpTo stop text first)
    (misses' : MissesUpTo stop text second) : MissesUpTo stop text (first <|> second) := by
  intro trail before
  have inner := misses trail before
  rw [trail_orElse]
  split
  next => exact inner
  next => exact misses' _ inner

theorem HeedsAt.orElse {first second : Phrase α} (heeds : HeedsAt stop text first)
    (heeds' : HeedsAt stop text second) : HeedsAt stop text (first <|> second) := by
  refine ⟨?_, heeds.attempt.orElse heeds'.attempt⟩
  intro rest a read
  rcases (read_orElse_iff _ _ _ _ _).mp read with found | ⟨-, found⟩
  · exact heeds.read found
  · exact heeds'.read found

theorem Heeds.maybe {phrase : Phrase α} (heeds : Heeds phrase) : Heeds (maybe phrase) := by
  intro stop text leads
  constructor
  · intro rest a? read
    rcases (read_maybe_iff _ _ _ _).mp read with ⟨a, found, -⟩ | ⟨-, -, rfl⟩
    · exact (heeds leads).read found
    · exact leads
  · intro trail before
    rw [trail_maybe]
    exact (heeds leads).attempt trail before

theorem Heeds.readMany {phrase : Phrase α} (heeds : Heeds phrase) (limit : Nat)
    (leads : Leads stop text) : Leads stop (readMany phrase limit text).2 := by
  induction limit generalizing text with
  | zero => exact leads
  | succ limit ih =>
      rw [Phrase.readMany]
      cases read : phrase.read (skip text) with
      | none => exact leads
      | some found =>
          obtain ⟨a, rest⟩ := found
          exact ih ((heeds leads.skip).read read)

theorem Heeds.attemptMany {phrase : Phrase α} (heeds : Heeds phrase) (limit : Nat) {trail : Trail}
    (leads : Leads stop text) (before : stop.length ≤ trail.remaining) :
    stop.length ≤ (attemptMany phrase limit text trail).2.remaining := by
  induction limit generalizing text trail with
  | zero => exact before
  | succ limit ih =>
      have inner := (heeds leads.skip).attempt trail before
      rw [trail_attemptMany_succ]
      split
      next => exact inner
      next a rest read => exact ih ((heeds leads.skip).read read) inner

theorem Heeds.many {phrase : Phrase α} (heeds : Heeds phrase) : Heeds (many phrase) := by
  intro stop text leads
  constructor
  · intro rest as read
    have left := heeds.readMany text.length leads
    rwa [(read_many_iff _ _ _ _).mp read] at left
  · intro trail before
    exact heeds.attemptMany text.length leads before

/-! ## Lexemes -/

theorem heeds_token {spelling : String} (plain : Plain spelling.toList) :
    Heeds (token spelling) := by
  intro stop text leads
  apply HeedsAt.lexeme
  intro rest nothing read
  have spelled := (read_token_iff _ _ _ _).mp read
  exact (spelled ▸ leads).of_append plain

theorem Grammar.Word.leads {name : String} {rest : List Char} (word : Word text name rest)
    (leads : Leads stop text) : Leads stop rest := by
  obtain ⟨rfl, isName, -⟩ := word
  refine leads.of_append ?_
  intro c member
  exact notMem_of_continuesName (continuesName_of_mem isName member)

theorem heeds_word (production : Production) (meaning : String → Option α) :
    Heeds (terminal production (readWord meaning)) := by
  intro stop text leads
  refine HeedsAt.named production (.lexeme ?_) leads.length_le
  intro rest a read
  obtain ⟨name, word, -⟩ := (readWord_eq_some_iff meaning text a rest).mp read
  exact word.leads leads

theorem heeds_identifier : Heeds identifier := by
  intro stop text leads
  refine HeedsAt.named _ (.lexeme ?_) leads.length_le
  intro rest name read
  exact ((readName_eq_some_iff text name rest).mp read).leads leads

theorem heeds_number : Heeds number := by
  intro stop text leads
  refine HeedsAt.named _ (.lexeme ?_) leads.length_le
  intro rest numeral read
  obtain ⟨number, -⟩ := (readNumeral_eq_some_iff text numeral rest).mp read
  exact (number.spelled ▸ leads).of_append number.plain

theorem heeds_string : Heeds string := by
  intro stop text leads
  refine HeedsAt.named _ (.lexeme ?_) leads.length_le
  intro rest value read
  obtain ⟨interior, isInterior, rfl, -⟩ := of_readString read
  exact leads.of_quoted isInterior

theorem heeds_operator : Heeds operator := by
  intro stop text leads
  refine HeedsAt.named _ (.lexeme ?_) leads.length_le
  intro rest operator read
  obtain ⟨spelled, -⟩ := (readOperator_eq_some_iff text operator rest).mp read
  have plain : Plain operator.operator.toList := by cases operator <;> decide
  exact (spelled ▸ leads).of_append plain

theorem heeds_absent (c : Char) : Heeds (absent c) := by
  intro stop text leads
  apply HeedsAt.lexeme
  intro rest nothing read
  obtain ⟨-, rfl⟩ := (read_absent_iff _ _ _ _).mp read
  exact leads

/-- **The phrases of the grammar heed the place where recovery stops.** -/
theorem closed_heeds : Closed @Heeds where
  sign isSign := heeds_token (plain_of_mem_signs isSign)
  word := heeds_word
  identifier := heeds_identifier
  number := heeds_number
  string := heeds_string
  counter _ _ leads := HeedsAt.named _ (heeds_token (by decide) leads) leads.length_le
  operator := heeds_operator
  unapplied := heeds_absent '('
  never _ := .lexeme fun read => nomatch read
  named production _ heeds _ _ leads := (heeds leads).named production leads.length_le
  map f _ heeds _ _ leads := (heeds leads).map f
  both combine _ _ heeds heeds' _ _ leads := (heeds leads).both combine heeds'
  orElse heeds heeds' _ _ leads := (heeds leads).orElse (heeds' leads)
  maybe heeds := heeds.maybe
  many heeds _ := heeds.many
  defer heeds _ _ leads := ⟨(heeds leads).read, (heeds leads).attempt⟩

/-! ## Statements -/

theorem heeds_argument : Heeds argument := fun _ text leads =>
  ⟨(closed_heeds.holds_nested (text.length + 1) leads).read,
    (closed_heeds.holds_nested (text.length + 1) leads).attempt⟩

section Statements

variable (text)

/-- The keyword of a declaration is passed where nothing has been passed before. -/
theorem heedsAt_declarationKeyword :
    HeedsAt (Recovery.resume text) text declarationKeyword := by
  refine HeedsAt.named _ (.lexeme ?_) (Recovery.passCode_suffix false text).length_le
  intro rest nothing read
  obtain ⟨rfl, -⟩ := (read_declarationKeyword_iff text nothing rest).mp read
  rw [Recovery.resume, Recovery.passCode_of_keyword]
  exact Leads.of_append (by decide) ⟨true, rfl⟩

theorem missesUpTo_declaration : MissesUpTo (Recovery.resume text) text declaration := by
  have opened : HeedsAt (Recovery.resume text) text (declarationKeyword *> relationNames) :=
    (heedsAt_declarationKeyword text).both _ closed_heeds.holds_relationNames
  refine MissesUpTo.named _ ?_ (Recovery.passCode_suffix false text).length_le
  apply HeedsAt.attempt
  refine HeedsAt.both _ ?_ closed_heeds.holds_representation
  exact (opened.map _).both _ closed_heeds.holds_columns

/-- A clause may take the full stop, but the full stop is its last element. -/
theorem missesUpTo_clause : MissesUpTo (Recovery.resume text) text clause := by
  have leads : Leads (Recovery.resume text) text := ⟨false, rfl⟩
  have head := closed_heeds.holds_atom heeds_argument
  have contents := (closed_heeds.holds_body heeds_argument).maybe
  refine MissesUpTo.named _ ?_ leads.length_le
  refine MissesUpTo.both _ ?_ fun _ _ _ before => before
  exact ((head leads).map _).both _ contents

theorem missesUpTo_statement : MissesUpTo (Recovery.resume text) text statement :=
  MissesUpTo.named _
    (((missesUpTo_declaration text).map _).orElse ((missesUpTo_clause text).map _))
    (Recovery.passCode_suffix false text).length_le

/-- **A fault does not lie behind the place where reading goes on.** -/
theorem Recovery.length_resume_le_fault :
    (resume text).length ≤ (nextStatement.fault text).remaining := by
  have layout : resume (skip text) = resume text := (passCode_of_layout (layout_skip text)).symm
  have misses := missesUpTo_statement (skip text) (.start text)
  rw [layout] at misses
  exact misses (passCode_suffix false text).length_le

end Statements

end Datalog
