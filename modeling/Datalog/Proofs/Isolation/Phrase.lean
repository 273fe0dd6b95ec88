import Datalog.Grammar.Statement
import Datalog.Proofs.Grammar.Closure
import Datalog.Proofs.Isolation.Unstopped

/-!
# Reading in front of a full stop

In front of the full stop that ends a statement a phrase is confined: whether it is
read, and up to where, is decided by the text up to the full stop, and nothing is
missed behind it.  Sequences, choices and repetitions of confined phrases are
confined, because what they leave to be read is again a text up to the full stop, and
so is what remains of it behind layout (`ConfinedAt.both`).
-/

set_option autoImplicit false

namespace Datalog.Grammar

open Phrase

variable {α β γ : Type}

/-! ## Confined phrases -/

/-- A reader refuses a text up to a full stop or leaves a shorter one, whatever
stands behind the full stop. -/
inductive Halts (front : List Char) (read : List Char → Option (α × List Char)) : Prop
  | refuses (refused : ∀ tail, StartsLine tail → read (front ++ '.' :: tail) = none)
  | stops (front' : List Char) (upTo : UpToStop front') (suffix : front' <:+ front)
      (taken : ∀ tail, StartsLine tail →
        ∃ a, read (front ++ '.' :: tail) = some (a, front' ++ '.' :: tail))

/-- Nothing is missed behind the full stop that stands behind the given text. -/
def Within (front : List Char) (phrase : Phrase α) : Prop :=
  ∀ tail trail, StartsLine tail → tail.length < trail.remaining →
    tail.length < (phrase.attempt (front ++ '.' :: tail) trail).2.remaining

/-- A phrase is neither read beyond the full stop behind the given text, nor is
anything missed there. -/
structure ConfinedAt (front : List Char) (phrase : Phrase α) : Prop where
  read : Halts front phrase.read
  attempt : Within front phrase

/-- A phrase is confined in front of every full stop that ends a statement. -/
def Confined (phrase : Phrase α) : Prop :=
  ∀ ⦃front : List Char⦄, UpToStop front → ConfinedAt front phrase

/-- Missing a production in front of a place is not missing it behind. -/
theorem le_remaining_miss {limit remaining : Nat} {inside : Trail} (production : Production)
    (begun : Trail) (before : limit ≤ remaining) (within : limit ≤ inside.remaining) :
    limit ≤ (Trail.miss production remaining begun inside).remaining := by
  simp only [Trail.miss]
  split
  · exact within
  · split
    · exact before
    · exact within

theorem startsLine_nil : StartsLine [] := by simp [StartsLine]

section Combinators

variable {front : List Char}

/-- What a confined phrase leaves leads up to the same full stop. -/
theorem ConfinedAt.left {phrase : Phrase α} (confined : ConfinedAt front phrase)
    {tail rest : List Char} {a : α} (starts : StartsLine tail)
    (read : phrase.read (front ++ '.' :: tail) = some (a, rest)) :
    ∃ front', UpToStop front' ∧ front' <:+ front ∧ rest = front' ++ '.' :: tail := by
  cases confined.read with
  | refuses refused => rw [refused tail starts] at read; cases read
  | stops front' upTo suffix taken =>
      obtain ⟨b, same⟩ := taken tail starts
      obtain ⟨-, rfl⟩ := Prod.mk.inj (Option.some.inj (same.symm.trans read))
      exact ⟨front', upTo, suffix, rfl⟩

/-- A reader halts if whatever it reads in front of one tail it reads in front of
every tail, up to the same place. -/
theorem Halts.of_shift {read : List Char → Option (α × List Char)}
    (shift : ∀ {tail rest : List Char} {a : α}, StartsLine tail →
      read (front ++ '.' :: tail) = some (a, rest) →
        ∃ front', UpToStop front' ∧ front' <:+ front ∧ ∀ tail', StartsLine tail' →
          ∃ a', read (front ++ '.' :: tail') = some (a', front' ++ '.' :: tail')) :
    Halts front read := by
  cases found : read (front ++ '.' :: []) with
  | some answer =>
      obtain ⟨a, rest⟩ := answer
      obtain ⟨front', upTo, suffix, taken⟩ := shift startsLine_nil found
      exact .stops front' upTo suffix taken
  | none =>
      refine .refuses fun tail starts => ?_
      cases found' : read (front ++ '.' :: tail) with
      | none => rfl
      | some answer =>
          obtain ⟨a, rest⟩ := answer
          obtain ⟨front', -, -, taken⟩ := shift starts found'
          obtain ⟨a', same⟩ := taken [] startsLine_nil
          rw [found] at same
          cases same

theorem ConfinedAt.lexeme {read : List Char → Option (α × List Char)} (halts : Halts front read) :
    ConfinedAt front (Phrase.lexeme read) :=
  ⟨halts, fun _ _ _ before => before⟩

theorem Within.named (production : Production) {phrase : Phrase α} (within : Within front phrase) :
    Within front (named production phrase) := by
  intro tail trail starts before
  have inner := within tail trail starts before
  have place : tail.length < (front ++ '.' :: tail).length := by simp; omega
  rw [trail_named]
  split
  next => exact inner
  next => exact le_remaining_miss production trail place inner

theorem ConfinedAt.named (production : Production) {phrase : Phrase α}
    (confined : ConfinedAt front phrase) : ConfinedAt front (named production phrase) :=
  ⟨confined.read, confined.attempt.named production⟩

theorem Halts.map (f : α → β) {read : List Char → Option (α × List Char)}
    (halts : Halts front read) :
    Halts front fun text => (read text).map fun (a, rest) => (f a, rest) := by
  cases halts with
  | refuses refused => exact .refuses fun tail starts => by rw [refused tail starts]; rfl
  | stops front' upTo suffix taken =>
      refine .stops front' upTo suffix fun tail starts => ?_
      obtain ⟨a, same⟩ := taken tail starts
      exact ⟨f a, by rw [same]; rfl⟩

theorem ConfinedAt.map (f : α → β) {phrase : Phrase α} (confined : ConfinedAt front phrase) :
    ConfinedAt front (f <$> phrase) :=
  ⟨confined.read.map f, confined.attempt⟩

theorem read_both_of_read (combine : α → β → γ) {first : Phrase α} {second : Unit → Phrase β}
    {text rest : List Char} {a : α} (read : first.read text = some (a, rest)) :
    (both combine first second).read text =
      ((second ()).read (skip rest)).map fun (b, rest) => (combine a b, rest) := by
  rw [read_both, read]
  rfl

theorem confined_token {spelling : String} (plain : Plain spelling.toList) :
    Confined (token spelling) := by
  intro front upTo
  refine .lexeme (.of_shift ?_)
  intro tail rest nothing _ read
  obtain ⟨front', rfl, settled, rfl⟩ :=
    upTo.of_letters plain ((read_token_iff _ _ _ _).mp read)
  refine ⟨front', settled, List.suffix_append _ _, fun tail' _ => ⟨(), ?_⟩⟩
  exact (read_token_iff _ _ _ _).mpr (List.append_assoc _ _ _)

theorem Within.both (combine : α → β → γ) {first : Phrase α} {second : Unit → Phrase β}
    (confined : ConfinedAt front first)
    (within : ∀ ⦃front'⦄, UpToStop front' → Within front' (second ())) :
    Within front (both combine first second) := by
  intro tail trail starts before
  have inner := confined.attempt tail trail starts before
  rw [trail_both]
  split
  next => exact inner
  next a rest read =>
    obtain ⟨front', upTo, -, rfl⟩ := confined.left starts read
    obtain ⟨front'', upTo'', -, skipped⟩ := upTo.skip_eq
    rw [skipped]
    exact within upTo'' tail _ starts inner

/-- **A sequence is confined where its first element is.** -/
theorem ConfinedAt.both (combine : α → β → γ) {first : Phrase α} {second : Unit → Phrase β}
    (confined : ConfinedAt front first) (confined' : Confined (second ())) :
    ConfinedAt front (both combine first second) := by
  constructor
  · cases confined.read with
    | refuses refused =>
        exact .refuses fun tail starts => by rw [read_both, refused tail starts]; rfl
    | stops front' upTo suffix taken =>
        obtain ⟨front'', upTo'', suffix'', skipped⟩ := upTo.skip_eq
        cases (confined' upTo'').read with
        | refuses refused =>
            refine .refuses fun tail starts => ?_
            obtain ⟨a, same⟩ := taken tail starts
            rw [read_both_of_read combine same, skipped, refused tail starts]
            rfl
        | stops behind settled shorter taken' =>
            refine .stops behind settled ((shorter.trans suffix'').trans suffix) ?_
            intro tail starts
            obtain ⟨a, same⟩ := taken tail starts
            obtain ⟨b, same'⟩ := taken' tail starts
            exact ⟨combine a b, by rw [read_both_of_read combine same, skipped, same']; rfl⟩
  · exact .both combine confined fun _ upTo => (confined' upTo).attempt

theorem Within.orElse {first second : Phrase α} (within : Within front first)
    (within' : Within front second) : Within front (first <|> second) := by
  intro tail trail starts before
  have inner := within tail trail starts before
  rw [trail_orElse]
  split
  next => exact inner
  next => exact within' tail _ starts inner

/-- A choice is confined where both of its phrases are. -/
theorem ConfinedAt.orElse {first second : Phrase α} (confined : ConfinedAt front first)
    (confined' : ConfinedAt front second) : ConfinedAt front (first <|> second) := by
  constructor
  · cases confined.read with
    | stops front' upTo suffix taken =>
        refine .stops front' upTo suffix fun tail starts => ?_
        obtain ⟨a, same⟩ := taken tail starts
        exact ⟨a, by rw [read_orElse, same]; rfl⟩
    | refuses refused =>
        cases confined'.read with
        | refuses refused' =>
            refine .refuses fun tail starts => ?_
            rw [read_orElse, refused tail starts, refused' tail starts]
            rfl
        | stops front' upTo suffix taken =>
            refine .stops front' upTo suffix fun tail starts => ?_
            obtain ⟨a, same⟩ := taken tail starts
            exact ⟨a, by rw [read_orElse, refused tail starts, same]; rfl⟩
  · exact confined.attempt.orElse confined'.attempt

/-- A phrase that may be left out is confined. -/
theorem Confined.maybe {phrase : Phrase α} (confined : Confined phrase) :
    Confined (maybe phrase) := by
  intro front upTo
  constructor
  · cases (confined upTo).read with
    | refuses refused =>
        refine .stops front upTo List.suffix_rfl fun tail starts => ⟨none, ?_⟩
        exact (read_maybe_iff _ _ _ _).mpr (.inr ⟨refused tail starts, rfl, rfl⟩)
    | stops front' upTo' suffix taken =>
        refine .stops front' upTo' suffix fun tail starts => ?_
        obtain ⟨a, same⟩ := taken tail starts
        exact ⟨some a, (read_maybe_iff _ _ _ _).mpr (.inl ⟨a, same, rfl⟩)⟩
  · intro tail trail starts before
    rw [trail_maybe]
    exact (confined upTo).attempt tail trail starts before

end Combinators

/-! ## Repetitions -/

section Repetitions

variable {phrase : Phrase α}

/-- **Repetitions of a confined phrase are confined.**  It makes no difference how
many of them are allowed for, if they are as many as there are characters. -/
theorem Confined.readMany (confined : Confined phrase) (shrinks : Shrinks phrase)
    {front : List Char} (upTo : UpToStop front) :
    ∃ front', UpToStop front' ∧ front' <:+ front ∧
      ∀ tail limit, StartsLine tail → front.length ≤ limit →
        ∃ as, readMany phrase limit (front ++ '.' :: tail) = (as, front' ++ '.' :: tail) := by
  obtain ⟨start, upTo', suffix, skipped⟩ := upTo.skip_eq
  cases (confined upTo').read with
  | refuses refused =>
      refine ⟨front, upTo, List.suffix_rfl, fun tail limit starts _ => ⟨[], ?_⟩⟩
      cases limit with
      | zero => rfl
      | succ limit => rw [Phrase.readMany, skipped, refused tail starts]
  | stops stop upTo'' suffix' taken =>
      have shorter : stop.length < front.length := by
        obtain ⟨a, same⟩ := taken [] startsLine_nil
        have less := shrinks same
        have bound := suffix.length_le
        simp only [List.length_append] at less
        omega
      obtain ⟨last, settled, further, counted⟩ := Confined.readMany confined shrinks upTo''
      refine ⟨last, settled, (further.trans suffix').trans suffix, ?_⟩
      intro tail limit starts enough
      obtain ⟨limit, rfl⟩ : ∃ less, limit = less + 1 := ⟨limit - 1, by omega⟩
      obtain ⟨a, same⟩ := taken tail starts
      obtain ⟨as, counted⟩ := counted tail limit starts (by omega)
      exact ⟨a :: as, by simp only [Phrase.readMany, skipped, same, counted]⟩
termination_by front.length

theorem Confined.attemptMany (confined : Confined phrase) {front tail : List Char} {limit : Nat}
    {trail : Trail} (upTo : UpToStop front) (starts : StartsLine tail)
    (before : tail.length < trail.remaining) :
    tail.length < (attemptMany phrase limit (front ++ '.' :: tail) trail).2.remaining := by
  induction limit generalizing front trail with
  | zero => exact before
  | succ limit ih =>
      obtain ⟨start, upTo', -, skipped⟩ := upTo.skip_eq
      have within := (confined upTo').attempt tail trail starts before
      rw [trail_attemptMany_succ, skipped]
      split
      next => exact within
      next a rest read =>
        obtain ⟨stop, upTo'', -, rfl⟩ := (confined upTo').left starts read
        exact ih upTo'' within

theorem Confined.many (confined : Confined phrase) (shrinks : Shrinks phrase) :
    Confined (many phrase) := by
  intro front upTo
  constructor
  · obtain ⟨front', upTo', suffix, counted⟩ := confined.readMany shrinks upTo
    refine .stops front' upTo' suffix fun tail starts => ?_
    obtain ⟨as, same⟩ := counted tail (front ++ '.' :: tail).length starts (by simp)
    exact ⟨as, (read_many_iff _ _ _ _).mpr same⟩
  · intro tail trail starts before
    exact confined.attemptMany upTo starts before

end Repetitions

end Datalog.Grammar
