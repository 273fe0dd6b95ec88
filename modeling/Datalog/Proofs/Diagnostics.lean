import Datalog.Proofs.Segment.Order
import Datalog.Proofs.Text.Place
import Datalog.Proofs.TranslationUnit.Remarks

/-!
# Diagnostics come in source order

Whatever the text is, its diagnostics come in the order of the places that they are
about, and each of them is about a place in its own statement: the fault of a malformed
piece lies where the piece was tried, up to the place where reading goes on, and a
numeral out of range lies inside its clause (`TranslationUnit.diagnostics_in_source_order`).
The segments of a text follow each other, and what is remarked on one of them is
remarked on a single place between its ends; both are carried over to locations,
because later places have later locations.
-/

set_option autoImplicit false

namespace Datalog

open Grammar

/-! ## The places of remarks -/

/-- Remarks come in the order of the places that they are about. -/
def InOrder (remarks : List Remark) : Prop :=
  remarks.Pairwise fun first second => second.remaining ≤ first.remaining

/-- The names of a declaration are remarked on at the place where it starts. -/
theorem remaining_of_mem_nameRemarks {start : Nat} {known listed names : List String}
    {remark : Remark} (member : remark ∈ nameRemarks start known listed names) :
    remark.remaining = start := by
  induction names generalizing listed with
  | nil => cases member
  | cons name rest ih =>
      rw [nameRemarks] at member
      split at member
      · rcases List.mem_cons.mp member with rfl | later
        · rfl
        · exact ih later
      · split at member
        · rcases List.mem_cons.mp member with rfl | later
          · rfl
          · exact ih later
        · exact ih member

namespace Segment

/-- A segment is remarked on at one place. -/
theorem remarks_at (known : List String) (segment : Segment) :
    ∃ place, ∀ remark ∈ segment.remarks known, remark.remaining = place := by
  obtain ⟨begins, ends, reading⟩ := segment
  cases reading with
  | malformed fault => exact ⟨fault.remaining, by simp [remarks]⟩
  | statement start stated =>
      cases stated with
      | declaration declared => exact ⟨start, fun _ member => remaining_of_mem_nameRemarks member⟩
      | clause spelled =>
          cases stopped : rejected? spelled.constants with
          | none => exact ⟨0, by simp [remarks, stopped]⟩
          | some numeral => exact ⟨numeral.remaining, by simp [remarks, stopped]⟩

theorem inOrder_remarks (known : List String) (segment : Segment) :
    InOrder (segment.remarks known) := by
  obtain ⟨place, single⟩ := segment.remarks_at known
  apply List.pairwise_of_forall_mem_list
  intro first member second member'
  rw [single first member, single second member']

/-- **What is remarked on a segment is remarked between its ends.** -/
theorem InSpan.remarks {segment : Segment} (inSpan : segment.InSpan) {known : List String}
    {remark : Remark} (member : remark ∈ segment.remarks known) :
    segment.ends ≤ remark.remaining ∧ remark.remaining ≤ segment.begins := by
  obtain ⟨begins, ends, reading⟩ := segment
  have places := inSpan.places
  cases reading with
  | malformed fault =>
      obtain rfl := List.mem_singleton.mp member
      exact places
  | statement start stated =>
      cases stated with
      | declaration declared =>
          rw [remaining_of_mem_nameRemarks member]
          exact ⟨Nat.le_of_lt places.1, places.2⟩
      | clause spelled =>
          obtain ⟨-, within, placed⟩ := places
          obtain ⟨numeral, rejected, rfl⟩ := List.mem_map.mp member
          obtain ⟨reach, bound⟩ := placed numeral (mem_of_rejected? (Option.mem_toList.mp rejected))
          exact ⟨Nat.le_of_lt reach, Nat.le_trans bound within⟩

end Segment

/-- What is remarked on some segments is not remarked in front of all of them. -/
theorem remaining_le_of_mem_remarksOn {known : List String} {segments : List Segment}
    {limit : Nat} (inSpan : ∀ segment ∈ segments, segment.InSpan)
    (bound : ∀ segment ∈ segments, segment.begins ≤ limit) :
    ∀ remark ∈ remarksOn known segments, remark.remaining ≤ limit := by
  induction segments generalizing known with
  | nil => intro remark member; cases member
  | cons segment rest ih =>
      intro remark member
      rcases List.mem_append.mp member with own | later
      · have within := (inSpan segment List.mem_cons_self).remarks own
        exact Nat.le_trans within.2 (bound segment List.mem_cons_self)
      · exact ih (fun other listed => inSpan other (List.mem_cons_of_mem _ listed))
          (fun other listed => bound other (List.mem_cons_of_mem _ listed)) remark later

/-- **Segments that follow each other are remarked on in order.** -/
theorem inOrder_remarksOn {known : List String} {segments : List Segment}
    (inSpan : ∀ segment ∈ segments, segment.InSpan)
    (ordered : segments.Pairwise fun first second => second.begins ≤ first.ends) :
    InOrder (remarksOn known segments) := by
  induction segments generalizing known with
  | nil => exact .nil
  | cons segment rest ih =>
      obtain ⟨own, others⟩ := List.forall_mem_cons.mp inSpan
      obtain ⟨behind, ordered⟩ := List.pairwise_cons.mp ordered
      refine List.pairwise_append.mpr ⟨segment.inOrder_remarks known, ih others ordered, ?_⟩
      intro first member second later
      have within := own.remarks member
      exact Nat.le_trans (remaining_le_of_mem_remarksOn others behind second later) within.1

/-! ## The report of a text -/

namespace TranslationUnit

/-- The diagnostics of a text come in source order, each in its own statement. -/
structure InSourceOrder (code : List Char) (report : ErrorReport) (unit : TranslationUnit) :
    Prop where
  /-- Behind what was reported before, the report holds what is remarked on the segments. -/
  reported : unit.report.diagnostics = report.diagnostics ++
    ((remarksOn [] (Segment.all code)).filter (Remark.wanted report.quiet)).map
      (Remark.diagnostic code)
  /-- All of these diagnostics have locations. -/
  located : ∀ diagnostic ∈ unit.report.diagnostics.drop report.diagnostics.length,
    diagnostic.location?.isSome = true
  /-- Their locations do not lie in front of each other. -/
  ordered : ((unit.report.diagnostics.drop report.diagnostics.length).filterMap
    Diagnostic.location?).Pairwise (· ≤ ·)
  /-- A malformed piece is reported at its fault, which lies between the place where the
  piece begins and the place where reading goes on. -/
  malformed : ∀ begins ends fault, ⟨begins, ends, .malformed fault⟩ ∈ Segment.all code →
    ⟨.error, fault.message, some (.ofPlace code fault.remaining)⟩ ∈ unit.report.diagnostics ∧
      Text.offset code begins ≤ Text.offset code fault.remaining ∧
      Text.offset code fault.remaining ≤ Text.offset code ends
  /-- A clause with a numeral out of range is reported at the first one, which lies
  between the place where the clause starts and the place where it ends. -/
  outOfRange : ∀ begins ends start spelled numeral,
    ⟨begins, ends, .statement start (.clause spelled)⟩ ∈ Segment.all code →
    rejected? spelled.constants = some numeral →
    ⟨.error, (ParseError.outOfRange numeral).message, some (.ofPlace code numeral.remaining)⟩ ∈
        unit.report.diagnostics ∧
      Text.offset code start ≤ Text.offset code numeral.remaining ∧
      Text.offset code numeral.remaining < Text.offset code ends

/-- An error that is remarked on a segment is reported. -/
theorem mem_diagnostics_of_remark {code : List Char} {symbols : SymbolTable}
    {report : ErrorReport} {debug : DebugReport} {segment : Segment} {remark : Remark}
    (member : segment ∈ Segment.all code) (grave : remark.severity = .error)
    (remarked : ∀ known, remark ∈ segment.remarks known) :
    remark.diagnostic code ∈ (ofText code symbols report debug).report.diagnostics := by
  obtain ⟨front, behind, split⟩ := List.append_of_mem member
  rw [ofText_diagnostics, split, remarksOn_append, remarksOn]
  refine List.mem_append_right _ (List.mem_map_of_mem (List.mem_filter.mpr ⟨?_, ?_⟩))
  · exact List.mem_append_right _ (List.mem_append_left _ (remarked _))
  · simp [Remark.wanted, grave]

/-- **Diagnostics come in source order**, and each lies in its own statement. -/
theorem diagnostics_in_source_order (code : List Char) (symbols : SymbolTable)
    (report : ErrorReport) (debug : DebugReport) :
    InSourceOrder code report (ofText code symbols report debug) := by
  have reported := ofText_diagnostics code symbols report debug
  have splits := Segment.splits_all code
  have inSpan := splits.inSpan
  have inOrder : InOrder (remarksOn [] (Segment.all code)) :=
    inOrder_remarksOn inSpan splits.ordered
  have fresh := congrArg (List.drop report.diagnostics.length) reported
  rw [List.drop_left] at fresh
  refine ⟨reported, ?_, ?_, ?_, ?_⟩
  · intro diagnostic member
    rw [fresh] at member
    obtain ⟨remark, -, rfl⟩ := List.mem_map.mp member
    rfl
  · rw [fresh, List.filterMap_map, List.pairwise_filterMap]
    refine (inOrder.filter _).imp ?_
    rintro first second later location (same : some _ = _) location' (same' : some _ = _)
    obtain rfl := Option.some.inj same
    obtain rfl := Option.some.inj same'
    exact Location.ofPlace_le_ofPlace code later
  · intro begins ends fault member
    obtain ⟨reach, bound⟩ := (inSpan _ member).places
    refine ⟨?_, Text.offset_le_offset code bound, Text.offset_le_offset code reach⟩
    exact mem_diagnostics_of_remark member rfl fun known => List.mem_singleton.mpr rfl
  · intro begins ends start spelled numeral member rejected
    obtain ⟨-, within, placed⟩ := (inSpan _ member).places
    obtain ⟨reach, bound⟩ := placed numeral (mem_of_rejected? rejected)
    have forward : ends < begins := (inSpan _ member).forward
    have inside : begins ≤ code.length := splits.begins_le _ member
    have remarked (known : List String) :
        Remark.mk .error (ParseError.outOfRange numeral).message numeral.remaining ∈
          Segment.remarks known ⟨begins, ends, .statement start (.clause spelled)⟩ :=
      List.mem_map.mpr ⟨numeral, Option.mem_toList.mpr rejected, rfl⟩
    refine ⟨mem_diagnostics_of_remark member rfl remarked, Text.offset_le_offset code bound, ?_⟩
    exact Text.offset_lt_offset reach (Nat.lt_of_lt_of_le forward inside)

end TranslationUnit

end Datalog
