import Datalog.Proofs.Diagnostics
import Datalog.Proofs.Grammar.Recursion
import Datalog.Proofs.Segment.Scan

/-!
# Reading is total and goes on

A text is read in turns.  Between two turns only an offset in bytes is kept, and each
turn cuts the text there, which would be an error inside a character or beyond the end
(`turn`); the scan for the end of a malformed statement cuts it again.  It never comes
to that: from an offset at which the text can be cut, a turn ends the loop or goes on
at a greater one, whatever it has found (`turn_append`).  So the loop ends, having found
the segments of the text (`turns_all`), and every place that a segment names has a
location.

Inside a turn, the recursion of the grammar and its repetitions come to an end on every
text (`Grammar.Terminates`).
-/

set_option autoImplicit false

namespace Datalog

open Grammar

/-! ## Turns -/

/-- What comes of one turn. -/
inductive Turn where
  /-- There is nothing more to be read. -/
  | finished
  /-- The text cannot be cut at an offset. -/
  | panicked
  /-- A segment has been found, and reading goes on at an offset. -/
  | goesOn (segment : Segment) (offset : Nat)

/-- One turn of reading a text, at an offset.  Behind what is malformed the next offset
is found by a scan for the end of the statement. -/
def turn (code : List Char) (offset : Nat) : Turn :=
  if Text.byteLength code ≤ offset then .finished
  else
    match Text.behind? code offset with
    | none => .panicked
    | some rest =>
      if (skip rest).isEmpty then .finished
      else
        let (segment, left) := Segment.next rest
        match segment.reading with
        | .statement .. => .goesOn segment (offset + Text.offset rest left.length)
        | .malformed _ =>
          match Recovery.scan rest .code false 0 rest with
          | none => .panicked
          | some passed => .goesOn segment (offset + passed)

/-- Turns from an offset to the end of the loop: the offsets at which they begin, and
the segments that they find. -/
inductive Turns (code : List Char) : Nat → List (Nat × Segment) → Prop where
  | finished {offset : Nat} (last : turn code offset = .finished) : Turns code offset []
  | goesOn {offset next : Nat} {segment : Segment} {turns : List (Nat × Segment)}
      (taken : turn code offset = .goesOn segment next) (later : Turns code next turns) :
      Turns code offset ((offset, segment) :: turns)

/-- The segment at the start of a text begins there and ends where it leaves the text. -/
theorem Segment.next_bounds (text : List Char) :
    (next text).1.begins = text.length ∧ (next text).1.ends = (next text).2.length := by
  cases read : nextStatement.read text with
  | none => rw [next_of_refused read]; exact ⟨rfl, rfl⟩
  | some found => rw [next_of_read read]; exact ⟨rfl, rfl⟩

/-- **Either way of going on leaves what the segment leaves.** -/
theorem turn_eq_goesOn {code rest : List Char} {offset : Nat}
    (inside : ¬ Text.byteLength code ≤ offset) (cut : Text.behind? code offset = some rest)
    (more : skip rest ≠ []) :
    turn code offset = .goesOn (Segment.next rest).1
      (offset + Text.offset rest (Segment.next rest).2.length) := by
  have goesOn : ¬ (skip rest).isEmpty = true := by simpa using more
  rw [turn, if_neg inside, cut]
  simp only [goesOn, if_false, Bool.false_eq_true]
  cases read : nextStatement.read rest with
  | none =>
      rw [Segment.next_of_refused read]
      simp only [Recovery.scan_start]
  | some found =>
      rw [Segment.next_of_read read]

section Turn

variable (front : List Char) {rest : List Char}

theorem turn_of_skip_eq_nil (done : skip rest = []) :
    turn (front ++ rest) (Text.byteLength front) = .finished := by
  rw [turn]
  split
  · rfl
  · rw [Text.behind?_append]
    simp only [done, List.isEmpty_nil, if_true]

/-- **A turn goes on at a greater offset**, at which the text can be cut. -/
theorem turn_append (more : skip rest ≠ []) :
    ∃ passed, passed ≠ [] ∧ rest = passed ++ (Segment.next rest).2 ∧
      turn (front ++ rest) (Text.byteLength front) =
        .goesOn (Segment.next rest).1 (Text.byteLength (front ++ passed)) := by
  obtain ⟨passed, same⟩ := Segment.next_suffix rest
  have shorter := Segment.length_next_lt more
  have taken : passed ≠ [] := by
    rintro rfl
    rw [List.nil_append] at same
    exact absurd (congrArg List.length same) (Nat.ne_of_lt shorter)
  have nonempty : rest ≠ [] := List.ne_nil_of_length_pos (by omega)
  have inside : ¬ Text.byteLength (front ++ rest) ≤ Text.byteLength front := by
    have positive := Text.byteLength_pos nonempty
    rw [Text.byteLength_append]
    omega
  have length : Text.offset rest (Segment.next rest).2.length = Text.byteLength passed := by
    have split := Text.offset_append_length passed (Segment.next rest).2
    rwa [same] at split
  refine ⟨passed, taken, same.symm, ?_⟩
  rw [turn_eq_goesOn inside (Text.behind?_append front rest) more, length,
    Text.byteLength_append]

end Turn

/-- **The loop ends**, having found the segments of the text. -/
theorem turns_all (front rest : List Char) :
    Turns (front ++ rest) (Text.byteLength front)
      ((Segment.all rest).map fun segment =>
        (Text.offset (front ++ rest) segment.begins, segment)) := by
  induction rest using Segment.induction generalizing front with
  | done rest done =>
      rw [Segment.all_of_skip_eq_nil done]
      exact .finished (turn_of_skip_eq_nil front done)
  | step rest more ih =>
      obtain ⟨passed, -, same, taken⟩ := turn_append front more
      have begins : Text.offset (front ++ rest) (Segment.next rest).1.begins =
          Text.byteLength front := by
        rw [(Segment.next_bounds rest).1, Text.offset_append_length]
      have whole : front ++ rest = front ++ passed ++ (Segment.next rest).2 := by
        rw [List.append_assoc, ← same]
      have later := ih (front ++ passed)
      rw [← whole] at later
      rw [Segment.all_eq_cons more, List.map_cons, begins]
      exact .goesOn taken later

/-! ## Places that are looked up -/

/-- The places that a segment names: where a declaration starts, where the first numeral
out of range stands, and where a malformed piece has its fault. -/
def Segment.places (segment : Segment) : List Nat :=
  match segment.reading with
  | .statement start (.declaration _) => [start]
  | .statement _ (.clause spelled) =>
    (rejected? spelled.constants).toList.map Numeral.remaining
  | .malformed fault => [fault.remaining]

theorem Segment.InSpan.places_le {segment : Segment} (inSpan : segment.InSpan) :
    ∀ place ∈ segment.places, place ≤ segment.begins := by
  obtain ⟨begins, ends, reading⟩ := segment
  have named := inSpan.places
  intro place member
  cases reading with
  | malformed fault =>
      obtain rfl := List.mem_singleton.mp member
      exact named.2
  | statement start stated =>
      cases stated with
      | declaration declared =>
          obtain rfl := List.mem_singleton.mp member
          exact named.2
      | clause spelled =>
          obtain ⟨-, within, placed⟩ := named
          obtain ⟨numeral, rejected, rfl⟩ := List.mem_map.mp member
          have known := mem_of_rejected? (Option.mem_toList.mp rejected)
          exact Nat.le_trans (placed numeral known).2 within

/-! ## Recursion inside a turn -/

/-- Reading a text comes to an end, since what is read does not depend on how many levels
of nesting and how many repetitions are allowed for. -/
structure Grammar.Terminates (text : List Char) : Prop where
  /-- Below as many levels of nesting as the text has characters anything may stand, even
  a phrase that cannot be read: it is never looked at. -/
  nesting : ∀ (bottom : Phrase SpelledArgument) (depth : Nat) (trail : Trail),
    text.length < depth →
      (argumentOver^[depth] bottom).attempt text trail = argument.attempt text trail
  /-- Arguments, and with them aggregates, their bodies, literals and atoms, are what the
  grammar makes of arguments. -/
  unfolds : ∀ trail : Trail,
    argument.attempt text trail = (argumentOver argument).attempt text trail
  /-- Repetitions end by themselves. -/
  repetition : ∀ {α : Type} (phrase : Phrase α), Trims phrase → ∀ (limit : Nat) (trail : Trail),
    text.length ≤ limit →
      Phrase.attemptMany (Phrase.token "," *> phrase) limit text trail =
        Phrase.attemptMany (Phrase.token "," *> phrase) text.length text trail

theorem Grammar.terminates (text : List Char) : Grammar.Terminates text where
  nesting bottom _ trail enough := attempt_iterate enough bottom trail
  unfolds := attempt_argument_unfold text
  repetition _ trims _ trail enough := attemptMany_eq trims enough (Nat.le_refl _) trail

/-! ## The whole loop -/

/-- Reading a text goes on until it ends. -/
structure ReadsOn (code : List Char) : Prop where
  /-- Where the text can be cut a turn does not fail, and if it goes on, it goes on at a
  greater offset at which the text can be cut. -/
  step : ∀ offset, (Text.behind? code offset).isSome = true →
    turn code offset ≠ .panicked ∧
      ∀ segment next, turn code offset = .goesOn segment next →
        offset < next ∧ next ≤ Text.byteLength code ∧ (Text.behind? code next).isSome = true
  /-- The loop ends, and finds the segments of the text. -/
  run : ∃ turns, Turns code 0 turns ∧ turns.map Prod.snd = Segment.all code
  /-- The places that a turn looks up, at offsets from where it began, have locations. -/
  places : ∀ offset rest segment next, Text.behind? code offset = some rest →
    turn code offset = .goesOn segment next → ∀ place ∈ segment.places,
      Location.at? code (offset + Text.offset rest place) = some (.ofPlace code place)
  /-- Every diagnostic has a location that was looked up. -/
  located : ∀ symbols report debug, ∀ diagnostic ∈
      (TranslationUnit.ofText code symbols report debug).report.diagnostics.drop
        report.diagnostics.length,
    ∃ offset, diagnostic.location? = Location.at? code offset ∧
      diagnostic.location?.isSome = true

theorem turn_progress (code : List Char) {offset : Nat}
    (cut : (Text.behind? code offset).isSome = true) :
    turn code offset ≠ .panicked ∧
      ∀ segment next, turn code offset = .goesOn segment next →
        offset < next ∧ next ≤ Text.byteLength code ∧ (Text.behind? code next).isSome = true := by
  obtain ⟨rest, found⟩ := Option.isSome_iff_exists.mp cut
  obtain ⟨front, rfl, rfl⟩ := Text.of_behind? found
  by_cases done : skip rest = []
  · rw [turn_of_skip_eq_nil front done]
    exact ⟨nofun, nofun⟩
  · obtain ⟨passed, some, same, taken⟩ := turn_append front done
    rw [taken]
    refine ⟨nofun, ?_⟩
    rintro segment next ⟨⟩
    have whole : front ++ rest = front ++ passed ++ (Segment.next rest).2 := by
      rw [List.append_assoc, ← same]
    have positive := Text.byteLength_pos some
    rw [whole, Text.behind?_append, Text.byteLength_append (front ++ passed),
      Text.byteLength_append front]
    exact ⟨by omega, Nat.le_add_right _ _, rfl⟩

/-- A place within what is left of a text has the location of its offset. -/
theorem Location.at?_append (front : List Char) {rest : List Char} {place : Nat}
    (within : place ≤ rest.length) :
    Location.at? (front ++ rest) (Text.byteLength front + Text.offset rest place) =
      some (.ofPlace (front ++ rest) place) := by
  rw [Nat.add_comm, ← Text.offset_append front within]
  apply Location.at?_offset
  rw [List.length_append]
  omega

/-- **Reading is total and always goes on.** -/
theorem reading_total (code : List Char) :
    ReadsOn code ∧ ∀ text : List Char, Grammar.Terminates text := by
  refine ⟨⟨fun offset cut => turn_progress code cut, ?_, ?_, ?_⟩, Grammar.terminates⟩
  · refine ⟨_, turns_all [] code, ?_⟩
    rw [List.map_map]
    exact List.map_id _
  · intro offset rest segment next found taken place member
    obtain ⟨front, rfl, rfl⟩ := Text.of_behind? found
    by_cases done : skip rest = []
    · rw [turn_of_skip_eq_nil front done] at taken
      cases taken
    · obtain ⟨passed, -, -, taken'⟩ := turn_append front done
      rw [taken'] at taken
      cases taken
      apply Location.at?_append front
      have bound := (Segment.inSpan_next done).places_le place member
      rwa [(Segment.next_bounds rest).1] at bound
  · intro symbols report debug diagnostic member
    have splits := Segment.splits_all code
    have reported := TranslationUnit.ofText_diagnostics code symbols report debug
    rw [reported, List.drop_left] at member
    obtain ⟨remark, listed, rfl⟩ := List.mem_map.mp member
    have bound := remaining_le_of_mem_remarksOn splits.inSpan splits.begins_le remark
      (List.mem_of_mem_filter listed)
    exact ⟨Text.offset code remark.remaining, (Location.at?_offset bound).symm, rfl⟩

end Datalog
