import Datalog.Proofs.Segment.Faults
import Datalog.Proofs.Segment.Names
import Datalog.Proofs.Segment.Scan
import Datalog.Proofs.SingleClause

/-!
# Recovery finds the end of a clause

Recovery is meant for malformed statements and knows nothing of the grammar.  Yet where a
clause could be read, recovery ends at the same place, whatever stands in front of the
clause, between its elements and inside its string constants: everything in a clause but
its full stop is passed as a whole (`heeds_atom`, `heeds_contents`), so recovery comes to
the full stop that ends the clause and to no other (`Recovery.leads_of_clause`).  There it
ends, unless the letters behind the full stop complete the keyword of a declaration.
-/

set_option autoImplicit false

namespace Datalog

open Grammar Phrase
open Recovery (Leads)

variable {stop text rest : List Char} {spelled : SpelledClause}

/-! ## Elements of clauses -/

theorem heeds_atom : Heeds atom := closed_heeds.holds_atom heeds_argument

/-- What may stand between the head and the full stop. -/
theorem heeds_contents : Heeds (maybe body) := (closed_heeds.holds_body heeds_argument).maybe

namespace Recovery

/-- Recovery leads to where it leads behind the full stop of a clause. -/
theorem leads_of_clause (read : clause.read text = some (spelled, rest))
    (leads : Leads stop text) : Leads stop ('.' :: rest) := by
  obtain ⟨behind, nothing, front, ends⟩ := (read_seqLeft_iff _ _ _ _ _).mp read
  obtain ⟨f, middle, contents, head, further, -⟩ := (read_seq_iff _ _ _ _ _).mp front
  obtain ⟨atom, head, -⟩ := (read_map_iff _ _ _ _ _).mp head
  have behindHead : Leads stop middle := (heeds_atom leads).read head
  have behindBody : Leads stop behind := (heeds_contents behindHead.skip).read further
  have terminator : skip behind = '.' :: rest := (read_token_iff _ _ _ _).mp ends
  exact terminator ▸ behindBody.skip

/-- Behind a full stop that completes no keyword, recovery has come to its end. -/
theorem Leads.eq_of_stop (leads : Leads stop ('.' :: rest)) (apart : ¬ "decl".toList <+: rest) :
    stop = rest := by
  obtain ⟨begun, rfl⟩ := leads
  apply passCode_of_stop
  rw [Bool.eq_false_iff]
  exact fun starts => apart (List.isPrefixOf_iff_prefix.mp starts)

/-- Recovery does not end behind a full stop that completes the keyword: it ends in front
of the keyword or goes on with its letters. -/
theorem Leads.ne_of_keyword (leads : Leads stop ('.' :: rest)) (keyword : "decl".toList <+: rest) :
    stop ≠ rest := by
  obtain ⟨begun, rfl⟩ := leads
  obtain ⟨letters, rfl⟩ := keyword
  have starts : "decl".toList.isPrefixOf ("decl".toList ++ letters) = true :=
    List.isPrefixOf_iff_prefix.mpr ⟨letters, rfl⟩
  intro same
  have lengths := congrArg List.length same
  rw [passCode.eq_5, if_pos starts] at lengths
  split at lengths
  next =>
    rw [List.length_cons] at lengths
    omega
  next =>
    have passed : passCode true ("decl".toList ++ letters) =
        passCode true ("ecl".toList ++ letters) := passCode_of_single true (by decide) _
    have shorter := (passCode_suffix true ("ecl".toList ++ letters)).length_le
    rw [passed] at lengths
    simp only [List.length_append] at lengths shorter
    have : "decl".toList.length = "ecl".toList.length + 1 := rfl
    omega

/-- Where a clause can be read, recovery begun at the same place leads to its full stop. -/
theorem resume_of_clause (read : nextStatement.read text = some (.clause spelled, rest)) :
    resume text = rest ↔ ¬ "decl".toList <+: rest := by
  rw [read_nextStatement, read_statement_clause_iff] at read
  have begun : Leads (resume text) text := ⟨false, rfl⟩
  have leads : Leads (resume text) ('.' :: rest) := leads_of_clause read begun.skip
  exact ⟨fun same keyword => leads.ne_of_keyword keyword same, leads.eq_of_stop⟩

/-- **The scan stops behind a clause exactly if no keyword begins with its full stop.**
Whatever layout, string constants and comments the clause has, the scan comes to the full
stop that ends it and to no other. -/
theorem scan_stops_behind_clause
    (read : nextStatement.read text = some (.clause spelled, rest)) :
    ∃ front, text = front ++ rest ∧
      (scan text .code false 0 text = some (Text.byteLength front) ↔
        ¬ "decl".toList <+: rest) := by
  have trims : rest <:+ text := by
    rw [read_nextStatement] at read
    exact (trims_statement read).trans (skip_suffix text)
  have stops := scan_start_eq_iff trims
  obtain ⟨front, rfl⟩ := trims
  refine ⟨front, rfl, ?_⟩
  rw [← resume_of_clause read, ← stops, Text.offset_append_length]

/-- A clause among full stops in comments and in a string constant, and one with a
keyword behind it. -/
theorem scan_stops_behind_clause_quoted :
    Recovery.scan "/*.*/ A(\"\\\".decl//\", $) // .\n :- 1 < 2 . B(x).".toList .code false 0
        "/*.*/ A(\"\\\".decl//\", $) // .\n :- 1 < 2 . B(x).".toList = some 40 ∧
      Recovery.scan "A(1).decl(2).".toList .code false 0 "A(1).decl(2).".toList ≠ some 5 := by
  constructor
  · have read : nextStatement.read "/*.*/ A(\"\\\".decl//\", $) // .\n :- 1 < 2 . B(x).".toList =
        some (.clause ⟨⟨"A", [.string "\".decl//", .counter]⟩,
          [.comparison .less (.number ⟨['1'], 13⟩) (.number ⟨['2'], 9⟩)]⟩, " B(x).".toList) := by
      rfl
    obtain ⟨front, split, stops⟩ := scan_stops_behind_clause read
    obtain rfl : "/*.*/ A(\"\\\".decl//\", $) // .\n :- 1 < 2 .".toList = front :=
      List.append_cancel_right split
    exact stops.mpr (by decide)
  · have read : nextStatement.read "A(1).decl(2).".toList =
        some (.clause ⟨⟨"A", [.number ⟨['1'], 11⟩]⟩, []⟩, "decl(2).".toList) := by
      rfl
    obtain ⟨front, split, stops⟩ := scan_stops_behind_clause read
    obtain rfl : "A(1).".toList = front := List.append_cancel_right split
    exact fun stopped => stops.mp stopped (by decide)

end Recovery

end Datalog
