import Datalog.Proofs.Segment.Progress
import Datalog.Proofs.Text.Place
import Datalog.Recovery

/-!
# Recovery by offsets

Where reading goes on behind a malformed statement can be found by going through the
characters with a count of the bytes that are passed, and a mark for what the
characters are inside of.  At a full stop the text is cut there, to see whether a
declaration follows.  The text can be cut wherever the scan comes to, and the scan stops
at the offset of what is left by recovery (`Recovery.scan_start`).
-/

set_option autoImplicit false

namespace Datalog.Recovery

/-- What a scan is inside of. -/
inductive Inside where
  | code
  /-- A string constant, and whether a backslash stands in front. -/
  | string (escaped : Bool)
  | line
  | block

/-- The offset at which the scan of a text stops, when the bytes up to a position have
been passed and some characters remain.  There is none if the text cannot be cut at a
full stop.  The flag tells whether something that belongs to the statement has been
passed. -/
def scan (text : List Char) : Inside → Bool → Nat → List Char → Option Nat
  | _, _, _, [] => some (Text.byteLength text)
  | .string true, begun, position, c :: rest =>
    scan text (.string false) begun (position + c.utf8Size) rest
  | .string false, begun, position, c :: rest =>
    let inside := if c = '\\' then .string true else if c = '"' then .code else .string false
    scan text inside begun (position + c.utf8Size) rest
  | .line, begun, position, c :: rest =>
    let inside := if c = '\n' ∨ c = '\r' then .code else .line
    scan text inside begun (position + c.utf8Size) rest
  | .block, begun, position, '*' :: '/' :: rest => scan text .code begun (position + 2) rest
  | .block, begun, position, c :: rest => scan text .block begun (position + c.utf8Size) rest
  | .code, begun, position, '/' :: '/' :: rest => scan text .line begun (position + 2) rest
  | .code, begun, position, '/' :: '*' :: rest => scan text .block begun (position + 2) rest
  | .code, _, position, '"' :: rest => scan text (.string false) true (position + 1) rest
  | .code, begun, position, '.' :: rest =>
    match Text.behind? text position with
    | none => none
    | some cut =>
      if ".decl".toList.isPrefixOf cut then
        if begun then some position else scan text .code true (position + 1) rest
      else some (position + 1)
  | .code, begun, position, c :: rest =>
    scan text .code (begun || !Text.isBlank c) (position + c.utf8Size) rest

/-- What recovery leaves of some characters, depending on what they are inside of. -/
def left (begun : Bool) : Inside → List Char → List Char
  | .code, rest => passCode begun rest
  | .string true, rest => passString rest.tail
  | .string false, rest => passString rest
  | .line, rest => passLine begun rest
  | .block, rest => passBlock begun rest

/-- Passing over a character of a string constant. -/
theorem left_string {begun : Bool} (entered : begun = true) (c : Char) (rest : List Char) :
    left begun (.string false) (c :: rest) =
      left begun (if c = '\\' then .string true else if c = '"' then .code else .string false)
        rest := by
  subst entered
  by_cases escape : c = '\\'
  · subst escape
    cases rest with
    | nil => rfl
    | cons d rest => rfl
  by_cases closing : c = '"'
  · subst closing
    rfl
  · rw [if_neg escape, if_neg closing, left, left, passString]
    · exact fun same _ => escape same
    · exact fun _ _ same _ => escape same
    · exact closing

/-- Passing over a character of a comment that ends with its line. -/
theorem left_line (begun : Bool) (c : Char) (rest : List Char) :
    left begun .line (c :: rest) =
      left begun (if c = '\n' ∨ c = '\r' then .code else .line) rest := by
  by_cases ending : c = '\n' ∨ c = '\r'
  · rw [if_pos ending]
    rcases ending with rfl | rfl <;> rfl
  · rw [if_neg ending, left, left, passLine]
    · exact fun same => ending (.inl same)
    · exact fun same => ending (.inr same)

theorem inside_of_line {c : Char} {escaped : Bool} :
    (if c = '\n' ∨ c = '\r' then Inside.code else .line) ≠ .string escaped := by
  split <;> nofun

/-- A full stop ends a statement, or begins a declaration. -/
theorem left_stop (begun : Bool) (rest : List Char) :
    left begun .code ('.' :: rest) =
      if ".decl".toList.isPrefixOf ('.' :: rest) then
        if begun then '.' :: rest else left true .code rest
      else rest := by
  rw [left, passCode]
  rfl

/-- **A scan comes only to offsets at which the text can be cut**, and it stops at the
offset of what is left.  Inside a string constant something has been passed: the quotation
mark that opens it. -/
theorem scan_eq {text : List Char} {inside : Inside} {begun : Bool} {position : Nat}
    {rest : List Char} (cut : Text.behind? text position = some rest)
    (entered : ∀ escaped, inside = .string escaped → begun = true) :
    scan text inside begun position rest =
      some (Text.offset text (left begun inside rest).length) := by
  -- Along the scan, the characters that remain are those behind the position.
  fun_induction scan text inside begun position rest with
  | case1 inside begun position =>
      obtain ⟨front, rfl, rfl⟩ := Text.of_behind? cut
      have same : left begun inside [] = [] := by
        cases inside with
        | string escaped => cases escaped <;> rfl
        | code | line | block => rfl
      rw [same, Text.offset_append_length, List.append_nil]
  | case2 begun position c rest ih =>
      exact ih (Text.behind?_next cut) fun _ _ => entered true rfl
  | case3 begun position c rest inside ih =>
      have known := entered false rfl
      rw [left_string known]
      exact ih (Text.behind?_next cut) fun _ _ => known
  | case4 begun position c rest inside ih =>
      rw [left_line]
      exact ih (Text.behind?_next cut) fun _ same => absurd same inside_of_line
  | case5 begun position rest ih =>
      exact ih (Text.behind?_next (Text.behind?_next cut)) nofun
  | case6 begun position c rest notClosing ih =>
      rw [left, passBlock.eq_3 _ _ _ notClosing]
      exact ih (Text.behind?_next cut) nofun
  | case7 begun position rest ih =>
      exact ih (Text.behind?_next (Text.behind?_next cut)) nofun
  | case8 begun position rest ih =>
      exact ih (Text.behind?_next (Text.behind?_next cut)) nofun
  | case9 begun position rest ih =>
      exact ih (Text.behind?_next cut) fun _ _ => rfl
  | case10 begun position rest panicked =>
      rw [cut] at panicked
      cases panicked
  | case11 position rest found same declares =>
      obtain rfl := Option.some.inj (same.symm.trans cut)
      rw [left_stop, if_pos declares, if_pos rfl, Text.offset_of_behind? cut]
  | case12 begun position rest found same declares notBegun ih =>
      obtain rfl := Option.some.inj (same.symm.trans cut)
      rw [left_stop, if_pos declares, if_neg notBegun]
      exact ih (Text.behind?_next cut) nofun
  | case13 begun position rest found same notDeclares =>
      obtain rfl := Option.some.inj (same.symm.trans cut)
      rw [left_stop, if_neg notDeclares]
      exact congrArg some (Text.offset_of_behind? (Text.behind?_next cut)).symm
  | case14 begun position c rest notLine notBlock notString notStop ih =>
      rw [left, passCode.eq_6 _ _ _ notLine notBlock notString notStop]
      exact ih (Text.behind?_next cut) nofun

/-- **A scan from the start of a text stops where reading goes on.** -/
theorem scan_start (text : List Char) :
    scan text .code false 0 text = some (Text.offset text (resume text).length) := by
  refine scan_eq (Text.behind?.eq_1 text) fun escaped same => ?_
  cases same

/-- The scan stops at the offset of what is left, and at no other place of the text. -/
theorem scan_start_eq_iff {text rest : List Char} (suffix : rest <:+ text) :
    scan text .code false 0 text = some (Text.offset text rest.length) ↔ resume text = rest := by
  have resumes : resume text <:+ text := passCode_suffix false text
  rw [scan_start, Option.some.injEq, Text.offset_eq_iff_of_suffix resumes suffix]

end Datalog.Recovery
