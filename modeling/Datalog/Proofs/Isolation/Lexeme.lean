import Datalog.Proofs.Isolation.Phrase

/-!
# Lexemes in front of a full stop

A lexeme is read in front of a full stop as it would be with anything else behind
the full stop: its letters stand in front of the full stop, and what may not follow it
is looked for there or is the full stop itself.  So every phrase of the grammar is
confined (`closed_confined`), apart from the full stop.
-/

set_option autoImplicit false

namespace Datalog.Grammar

open Phrase

variable {front tail rest : List Char}

/-! ## Names and words -/

theorem notMem_of_continuesName {c : Char} (continues : continuesName c = true) :
    c ∉ ['.', '"', '/'] := by
  intro member
  simp only [List.mem_cons, List.not_mem_nil, or_false] at member
  rcases member with rfl | rfl | rfl <;> revert continues <;> decide

/-- No name goes on with a full stop. -/
theorem beginsInName_append (front tail : List Char) :
    beginsInName (front ++ '.' :: tail) = beginsInName front := by
  cases front with
  | nil => exact show continuesName '.' = false by decide
  | cons c front => rfl

theorem Word.shift {name : String} (upTo : UpToStop front)
    (word : Word (front ++ '.' :: tail) name rest) :
    ∃ front', UpToStop front' ∧ front' <:+ front ∧
      ∀ tail', Word (front ++ '.' :: tail') name (front' ++ '.' :: tail') := by
  obtain ⟨spelled, isName, ends⟩ := word
  have plain : Plain name.toList := fun c member =>
    notMem_of_continuesName (continuesName_of_mem isName member)
  obtain ⟨front', rfl, settled, rfl⟩ := upTo.of_letters plain spelled
  rw [beginsInName_append] at ends
  refine ⟨front', settled, List.suffix_append _ _, fun tail' => ⟨by simp, isName, ?_⟩⟩
  rw [beginsInName_append, ends]

theorem halts_readName (upTo : UpToStop front) : Halts front readName := by
  refine .of_shift ?_
  intro tail rest name _ read
  obtain ⟨front', settled, suffix, words⟩ :=
    ((readName_eq_some_iff _ _ _).mp read).shift upTo
  exact ⟨front', settled, suffix, fun tail' _ =>
    ⟨name, (readName_eq_some_iff _ _ _).mpr (words tail')⟩⟩

theorem halts_readWord {α : Type} (meaning : String → Option α) (upTo : UpToStop front) :
    Halts front (readWord meaning) := by
  refine .of_shift ?_
  intro tail rest a _ read
  obtain ⟨name, word, known⟩ := (readWord_eq_some_iff _ _ _ _).mp read
  obtain ⟨front', settled, suffix, words⟩ := word.shift upTo
  exact ⟨front', settled, suffix, fun tail' _ =>
    ⟨a, (readWord_eq_some_iff _ _ _ _).mpr ⟨name, words tail', known⟩⟩⟩

/-! ## Numerals, string constants and operators -/

theorem NumberText.plain {text spelling rest : List Char} (number : NumberText text spelling rest) :
    Plain spelling := by
  obtain ⟨-, ⟨digits, -, all, form⟩, -⟩ := number
  have plain : Plain digits := fun c member =>
    notMem_of_continuesName (continuesName_of_isDigit (all c member))
  rcases form with rfl | rfl
  · exact plain
  · exact List.forall_mem_cons.mpr ⟨by decide, plain⟩

theorem halts_readNumeral (upTo : UpToStop front) : Halts front readNumeral := by
  refine .of_shift ?_
  intro tail rest numeral _ read
  obtain ⟨number, -⟩ := (readNumeral_eq_some_iff _ _ _).mp read
  obtain ⟨front', same, settled, rfl⟩ := upTo.of_letters number.plain number.spelled
  refine ⟨front', settled, ⟨numeral.spelling, same.symm⟩, fun tail' _ => ?_⟩
  have ends := number.ends
  rw [beginsInName_append] at ends
  refine ⟨⟨numeral.spelling, (front ++ '.' :: tail').length⟩, ?_⟩
  refine (readNumeral_eq_some_iff _ _ _).mpr ⟨⟨by simp [same], number.digits, ?_⟩, rfl⟩
  rw [beginsInName_append, ends]

/-- A string constant that is begun in front of the full stop ends there. -/
theorem halts_readString (upTo : UpToStop front) : Halts front readString := by
  refine .of_shift ?_
  intro tail rest value _ read
  obtain ⟨_, _, starts, _⟩ := of_readString read
  cases front with
  | nil => cases starts
  | cons c front =>
      obtain ⟨rfl, -⟩ := List.cons.inj starts
      obtain ⟨interior, behind, rfl, isInterior, settled⟩ := upTo.of_quote
      refine ⟨behind, settled, ⟨'"' :: (interior ++ ['"']), by simp⟩, fun tail' _ => ?_⟩
      refine ⟨String.ofList (Text.unescape interior), ?_⟩
      simpa using readString_append isInterior (behind ++ '.' :: tail')

theorem halts_readOperator (upTo : UpToStop front) : Halts front readOperator := by
  refine .of_shift ?_
  intro tail rest operator _ read
  obtain ⟨spelled, ends⟩ := (readOperator_eq_some_iff _ _ _).mp read
  have plain : Plain operator.operator.toList := by cases operator <;> decide
  obtain ⟨front', same, settled, rfl⟩ := upTo.of_letters plain spelled
  refine ⟨front', settled, ⟨_, same.symm⟩, fun tail' _ => ⟨operator, ?_⟩⟩
  refine (readOperator_eq_some_iff _ _ _).mpr ⟨by simp [same], fun isAngle => ?_⟩
  cases front' with
  | nil => simp
  | cons c front' => exact ends isAngle

/-! ## Signs -/

theorem confined_absent {c : Char} (other : c ≠ '.') : Confined (absent c) := by
  intro front upTo
  refine .lexeme (.of_shift ?_)
  intro tail rest nothing _ read
  obtain ⟨next, rfl⟩ := (read_absent_iff _ _ _ _).mp read
  refine ⟨front, upTo, List.suffix_rfl, fun tail' _ => ⟨nothing, ?_⟩⟩
  refine (read_absent_iff _ _ _ _).mpr ⟨?_, rfl⟩
  cases front with
  | nil => simpa using other.symm
  | cons d front => exact next

/-- The word that opens a declaration starts with a full stop, and a full stop that
ends a statement does not open a declaration. -/
theorem halts_declarationKeyword (upTo : UpToStop front) :
    Halts front declarationKeyword.read := by
  refine .of_shift ?_
  intro tail rest nothing starts read
  obtain ⟨same, ends⟩ := (read_declarationKeyword_iff _ _ _).mp read
  cases upTo with
  | unstopped unstopped =>
      cases front with
      | cons c front => exact absurd (List.cons.inj same).1 unstopped.head_ne
      | nil =>
          obtain rfl : tail = "decl".toList ++ rest := (List.cons.inj same).2
          exact absurd (starts 'd' rfl) (by decide)
  | @declaration front begun unstopped =>
      obtain rfl : front ++ '.' :: tail = rest :=
        List.append_cancel_left ((List.append_assoc _ _ _).symm.trans same)
      refine ⟨front, .unstopped unstopped, List.suffix_append _ _, fun tail' _ => ⟨(), ?_⟩⟩
      refine (read_declarationKeyword_iff _ _ _).mpr ⟨List.append_assoc _ _ _, ?_⟩
      rw [beginsInName_append, begun]

/-! ## Phrases of the grammar -/

theorem plain_of_mem_signs {spelling : String} (isSign : spelling ∈ signs) :
    Plain spelling.toList := by
  revert spelling
  decide

theorem confined_declarationKeyword : Confined declarationKeyword := fun _ upTo =>
  (ConfinedAt.lexeme (halts_declarationKeyword upTo)).named _

/-- **The phrases of the grammar are confined.** -/
theorem closed_confined : Closed @Confined where
  sign isSign := confined_token (plain_of_mem_signs isSign)
  word production meaning _ upTo :=
    (ConfinedAt.lexeme (halts_readWord meaning upTo)).named production
  identifier _ upTo := (ConfinedAt.lexeme (halts_readName upTo)).named _
  number _ upTo := (ConfinedAt.lexeme (halts_readNumeral upTo)).named _
  string _ upTo := (ConfinedAt.lexeme (halts_readString upTo)).named _
  counter _ upTo := (confined_token (by decide) upTo).named _
  operator _ upTo := (ConfinedAt.lexeme (halts_readOperator upTo)).named _
  unapplied := confined_absent (by decide)
  never _ := .lexeme (.refuses fun _ _ => rfl)
  named production _ confined _ upTo := (confined upTo).named production
  map f _ confined _ upTo := (confined upTo).map f
  both combine _ _ confined confined' _ upTo := (confined upTo).both combine confined'
  orElse confined confined' _ upTo := (confined upTo).orElse (confined' upTo)
  maybe confined := confined.maybe
  many confined shrinks := confined.many shrinks
  defer confined _ upTo := ⟨(confined upTo).read, (confined upTo).attempt⟩

end Datalog.Grammar
