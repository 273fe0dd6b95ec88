import Datalog.Proofs.Isolation.Places
import Datalog.Proofs.Isolation.Trail
import Datalog.Proofs.Segment.Faults
import Datalog.Proofs.Segment.Splitting

/-!
# Segments in order

The segments of a text follow each other, and every place that one of them names lies
between the place where it begins and the place where it ends: the start of a
statement, the numerals of a clause, and the fault of a malformed piece
(`Segment.Splits.inSpan`, `Segment.Splits.ordered`).  Places are named by the
characters that remain there, so a later place has a smaller name.
-/

set_option autoImplicit false

namespace Datalog

open Grammar

namespace Segment

/-- The places that a segment names lie between its ends.  The numerals of a clause lie
behind the place where the clause starts and in front of the place where it ends. -/
structure InSpan (segment : Segment) : Prop where
  forward : segment.ends < segment.begins
  places : match segment.reading with
    | .statement start (.declaration _) => segment.ends < start ∧ start ≤ segment.begins
    | .statement start (.clause spelled) => segment.ends < start ∧ start ≤ segment.begins ∧
        PlacedBetween segment.ends start spelled.constants
    | .malformed fault => segment.ends ≤ fault.remaining ∧ fault.remaining ≤ segment.begins

/-- A segment names no place outside a text that it begins in. -/
theorem InSpan.placedIn {segment : Segment} {limit : Nat} (inSpan : segment.InSpan)
    (bound : segment.begins ≤ limit) : segment.PlacedIn limit := by
  obtain ⟨begins, ends, reading⟩ := segment
  cases reading with
  | statement start stated =>
      cases stated with
      | declaration relation => exact Nat.le_trans inSpan.places.2 bound
      | clause spelled =>
          obtain ⟨-, within, placed⟩ := inSpan.places
          intro numeral member
          exact Nat.le_trans (placed.placedIn numeral member) (Nat.le_trans within bound)
  | malformed fault => exact Nat.le_trans inSpan.places.2 bound

/-- A statement that is read spans what it was read from. -/
theorem inSpan_of_read {text rest : List Char} {stated : Statement}
    (read : nextStatement.read text = some (stated, rest)) :
    InSpan ⟨text.length, rest.length, .statement (skip text).length stated⟩ := by
  have within := length_skip_le text
  rw [read_nextStatement] at read
  have shorter := length_lt_of_read_statement read
  obtain ⟨tree, stop, derives, behind, rfl⟩ := statement_sound read
  have last := behind.length_le
  refine ⟨Nat.lt_of_lt_of_le shorter within, ?_⟩
  cases derives with
  | declaration contents => exact ⟨shorter, within⟩
  | clause contents =>
      refine ⟨shorter, within, ?_⟩
      intro numeral member
      obtain ⟨reach, bound⟩ := contents.placedBetween numeral member
      exact ⟨Nat.lt_of_le_of_lt last reach, bound⟩

/-- **The fault of a malformed piece lies between the place where its reading began and
the place where reading goes on.** -/
theorem inSpan_of_refused {text : List Char} (more : skip text ≠ []) :
    InSpan ⟨text.length, (Recovery.resume text).length,
      .malformed (nextStatement.fault text)⟩ := by
  refine ⟨Recovery.length_resume_lt ?_, Recovery.length_resume_le_fault text,
    remaining_fault_le text⟩
  rintro rfl
  exact more (by simp [skip])

namespace Splits

variable {text : List Char} {segments : List Segment}

/-- The places that segments name lie between their ends. -/
theorem inSpan (splits : Splits text segments) : ∀ segment ∈ segments, segment.InSpan := by
  induction splits with
  | layout => simp
  | statement read _ ih => exact List.forall_mem_cons.mpr ⟨inSpan_of_read read, ih⟩
  | malformed more _ _ ih => exact List.forall_mem_cons.mpr ⟨inSpan_of_refused more, ih⟩

theorem begins_le (splits : Splits text segments) :
    ∀ segment ∈ segments, segment.begins ≤ text.length := by
  induction splits with
  | layout => simp
  | statement read _ ih =>
      have shorter := (inSpan_of_read read).forward
      refine List.forall_mem_cons.mpr ⟨Nat.le_refl _, fun segment member => ?_⟩
      exact Nat.le_trans (ih segment member) (Nat.le_of_lt shorter)
  | malformed more _ _ ih =>
      have shorter := (inSpan_of_refused more).forward
      refine List.forall_mem_cons.mpr ⟨Nat.le_refl _, fun segment member => ?_⟩
      exact Nat.le_trans (ih segment member) (Nat.le_of_lt shorter)

/-- **A segment begins where an earlier one ends, or later.** -/
theorem ordered (splits : Splits text segments) :
    segments.Pairwise fun first second => second.begins ≤ first.ends := by
  induction splits with
  | layout => exact .nil
  | statement _ behind ih => exact .cons behind.begins_le ih
  | malformed _ _ behind ih => exact .cons behind.begins_le ih

end Splits

/-- **The places that the segments of a text name are within the text.** -/
theorem placedIn_of_mem_all {text : List Char} {limit : Nat} (bound : text.length ≤ limit) :
    ∀ segment ∈ all text, segment.PlacedIn limit := by
  intro segment member
  have splits := splits_all text
  exact (splits.inSpan segment member).placedIn
    (Nat.le_trans (splits.begins_le segment member) bound)

theorem inSpan_next {text : List Char} (more : skip text ≠ []) : (next text).1.InSpan := by
  refine (splits_all text).inSpan _ ?_
  rw [all_eq_cons more]
  exact List.mem_cons_self

end Segment

end Datalog
