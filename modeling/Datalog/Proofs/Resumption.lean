import Datalog.Proofs.Printer.Derived
import Datalog.Proofs.Seam.Declared
import Datalog.Proofs.Segment.Names
import Datalog.Proofs.TranslationUnit.Tally

/-!
# Where reading resumes

A declaration on a line of its own stands behind a text that may be malformed.  Reading
resumes at the declaration and nothing of it is lost, unless the text hides the line
behind it (`declaration_kept_iff`).  There are two ways to do so.  If the last piece of
the text lacks nothing but its full stop, the full stop that opens the declaration ends
it.  If the last piece is made of blanks and comments but is no layout, because one of
the blanks is none to the grammar, recovery sees no statement in it and takes the
declaration for the malformed statement that it has to pass over.
-/

set_option autoImplicit false

namespace Datalog

open Grammar

/-! ## Texts that hide the next line -/

/-- The last piece of the text takes what stands on the next line. -/
inductive HidesNext : List Char → Prop
  /-- The piece ends with the full stop that opens the next line. -/
  | unfinished {text : List Char} (unfinished : Unfinished text) : HidesNext text
  /-- The piece is no layout, and recovery sees nothing in it. -/
  | faint {text : List Char} (more : skip text ≠ []) (faint : Faint text) : HidesNext text
  | later {text : List Char} (more : skip text ≠ []) (behind : HidesNext (Segment.next text).2) :
      HidesNext text

/-- **A text that hides nothing says what it says without the line**, and the line says
what it says alone. -/
theorem meanings_of_not_hidesNext {text : List Char} (inCode : InCode text)
    (shown : ¬ HidesNext text) (mark : List Char) :
    Segment.meanings (text ++ declarationLine mark) =
      Segment.meanings text ++ Segment.meanings (declarationLine mark) := by
  induction text using Segment.induction with
  | done text ends =>
      have layout := layout_of_skip_eq_nil ends (follows_declarationLine mark).startsLine
      rw [Segment.meanings_of_skip_eq_nil ends, Segment.meanings_of_skip_eq layout.skip_eq]
      rfl
  | step text more ih =>
      obtain ⟨kept, said⟩ := meanings_append inCode more
        (fun unfinished => shown (.unfinished unfinished)) fun faint => shown (.faint more faint)
      rw [said, ih kept fun behind => shown (.later more behind), Segment.meanings_eq_cons more]
      rfl

/-- **Behind a text that hides the line nothing is declared.** -/
theorem declared_of_hidesNext {text mark : List Char} (hides : HidesNext text)
    (inCode : InCode text) (isMark : DeclarationMark mark) {declared : Declaration}
    (member : some (.inl declared) ∈ Segment.meanings (text ++ declarationLine mark)) :
    some (.inl declared) ∈ Segment.meanings text := by
  induction hides with
  | unfinished unfinished =>
      obtain ⟨clause, said⟩ := meanings_of_unfinished inCode isMark unfinished
      simp [said] at member
  | faint more faint =>
      simp [meanings_of_faint inCode isMark more faint] at member
  | @later text more behind ih =>
      by_cases unfinished : Unfinished text
      · obtain ⟨clause, said⟩ := meanings_of_unfinished inCode isMark unfinished
        simp [said] at member
      by_cases faint : Faint text
      · simp [meanings_of_faint inCode isMark more faint] at member
      obtain ⟨kept, said⟩ := meanings_append inCode more unfinished faint
      rw [said] at member
      rw [Segment.meanings_eq_cons more]
      rcases List.mem_cons.mp member with first | later
      · exact List.mem_cons.mpr (.inl first)
      · exact List.mem_cons_of_mem _ (ih kept later)

/-! ## Declared relations -/

namespace TranslationUnit

variable (symbols : SymbolTable) (report : ErrorReport) (debug : DebugReport)

/-- A relation of a program comes from a declaration in its text. -/
theorem exists_declared {code : List Char} {relation : Relation}
    (member : relation ∈ (ofText code symbols report debug).program.relations) :
    ∃ declared : Declaration, some (.inl declared) ∈ Segment.meanings code ∧
      relation ∈ declared.relations := by
  obtain ⟨-, relations, -, -⟩ := ofText_holds code symbols report debug
  rw [relations] at member
  rcases Relation.mem_of_mem_foldl_enter member with none | member
  · cases none
  · obtain ⟨stated, listed, member⟩ := List.mem_flatMap.mp member
    obtain ⟨segment, inText, held⟩ := List.mem_filterMap.mp listed
    cases stated with
    | clause => cases member
    | declaration declared =>
        refine ⟨declared, List.mem_map.mpr ⟨segment, inText, ?_⟩, member⟩
        rw [Segment.meaning?, held]
        rfl

/-- A name that does not stand in a text is not that of a relation of its program. -/
theorem not_mem_names_of_not_infix {code : List Char} {name : String}
    (fresh : ¬ name.toList <:+: code) :
    name ∉ (ofText code symbols report debug).program.relations.map Relation.name := by
  intro member
  obtain ⟨relation, listed, rfl⟩ := List.mem_map.mp member
  obtain ⟨declared, inText, member⟩ := exists_declared symbols report debug listed
  obtain ⟨name, named, rfl⟩ := List.mem_map.mp member
  exact fresh (Segment.name_infix_of_declared code inText name named)

end TranslationUnit

/-! ## Kept declarations -/

/-- One unit holds and reports what another one does, and holds the relations of a
declaration besides. -/
structure KeepsDeclaration (declared : Declaration) (alone whole : TranslationUnit) : Prop where
  relations : whole.program.relations = alone.program.relations ++ declared.relations
  clauses : whole.program.clauseList = alone.program.clauseList
  symbols : whole.symbols = alone.symbols
  errors : whole.report.errors = alone.report.errors
  warnings : whole.report.warnings = alone.report.warnings

/-- A declaration of new names is taken in without an error or a warning. -/
theorem Tally.declare_of_fresh {tally : Tally} {declared : List Relation}
    (distinct : ((tally.relations ++ declared).map Relation.name).Nodup) :
    tally.declare declared = { tally with relations := tally.relations ++ declared } := by
  obtain ⟨-, once, apart⟩ := List.nodup_append.mp (List.map_append ▸ distinct)
  have entered : declared.foldl Relation.enter [] = declared := Relation.foldl_enter once
  have fresh : declared.countP (Relation.namedIn tally.relations) = 0 := by
    rw [List.countP_eq_zero]
    intro relation member named
    exact apart _ (Relation.namedIn_iff.mp named) _ (List.mem_map_of_mem member) rfl
  rw [declare, entered, Relation.foldl_enter distinct, fresh, Nat.sub_self, ite_self]
  rfl

/-- A text that says what another one says, and a declaration of new names behind it,
keeps the declaration. -/
theorem keepsDeclaration_of_meanings (symbols : SymbolTable) (report : ErrorReport)
    (debug : DebugReport) {text code : List Char} {declared : Declaration}
    (distinct : declared.names.Nodup) (fresh : ∀ name ∈ declared.names, ¬ name.toList <:+: text)
    (said : Segment.meanings code = Segment.meanings text ++ [some (.inl declared)]) :
    KeepsDeclaration declared (.ofText text symbols report debug)
      (.ofText code symbols report debug) := by
  let line : Segment := ⟨0, 0, .statement 0 (.declaration declared)⟩
  have alike : (Segment.all code).map Segment.meaning? =
      (Segment.all text ++ [line]).map Segment.meaning? := by
    rw [List.map_append]
    exact said
  let alone := TranslationUnit.ofText text symbols report debug
  have names : ((alone.tally.relations ++ declared.relations).map Relation.name).Nodup := by
    rw [List.map_append, declared.names_relations, List.nodup_append]
    refine ⟨alone.program.distinct, distinct, ?_⟩
    rintro name known _ listed rfl
    exact TranslationUnit.not_mem_names_of_not_infix symbols report debug (fresh name listed) known
  have whole : (TranslationUnit.ofText code symbols report debug).tally =
      alone.tally.declare declared.relations := by
    rw [TranslationUnit.ofText_tally, Tally.foldl_take_congr _ alike, List.map_append,
      List.foldl_append, ← TranslationUnit.ofText_tally text symbols report debug]
    rfl
  rw [Tally.declare_of_fresh names] at whole
  exact ⟨congrArg Tally.relations whole, congrArg Tally.clauses whole,
    congrArg Tally.symbols whole, congrArg Tally.errors whole, congrArg Tally.warnings whole⟩

/-! ## Resumption -/

/-- **A declaration on a line of its own is kept exactly if the text in front of it does
not hide the line**, whatever in that text is malformed.  Then everything else is read as
if the line were not there, with as many errors and warnings. -/
theorem declaration_kept_iff (symbols : SymbolTable) (report : ErrorReport)
    (debug : DebugReport) {text : List Char} {declared : Declaration} (inCode : InCode text)
    (wellFormed : declared.WellFormed) (distinct : declared.names.Nodup)
    (fresh : ∀ name ∈ declared.names, ¬ name.toList <:+: text) :
    let alone := TranslationUnit.ofText text symbols report debug
    let whole := TranslationUnit.ofText (text ++ '\n' :: (declared.text ++ ['\n'])) symbols report
      debug
    ((∀ relation ∈ declared.relations, relation ∈ whole.program.relations) ↔
        ¬ HidesNext text) ∧
      (¬ HidesNext text → KeepsDeclaration declared alone whole) := by
  intro alone whole
  obtain ⟨mark, isMark, line⟩ := Declaration.exists_mark wellFormed
  have kept (shown : ¬ HidesNext text) : KeepsDeclaration declared alone whole := by
    refine keepsDeclaration_of_meanings symbols report debug distinct fresh ?_
    have feed : skip (declarationLine mark) = skip (declared.text ++ ['\n']) := by
      rw [← line]
      exact (layout_feed _).skip_eq
    rw [line, meanings_of_not_hidesNext inCode shown, Segment.meanings_of_skip_eq feed,
      Segment.meanings_declaration wellFormed]
  refine ⟨⟨fun all hides => ?_, fun shown relation member => ?_⟩, kept⟩
  · -- a name of the declaration would stand in the text
    obtain ⟨name, listed⟩ := List.exists_mem_of_ne_nil _ wellFormed.some
    have member : ⟨name, declared.attributes, declared.representation⟩ ∈
        whole.program.relations := all _ (List.mem_map.mpr ⟨name, listed, rfl⟩)
    obtain ⟨other, said, named⟩ := TranslationUnit.exists_declared symbols report debug member
    rw [line] at said
    have inText := declared_of_hidesNext hides inCode isMark said
    obtain ⟨name', listed', same⟩ := List.mem_map.mp named
    obtain rfl : name' = name := congrArg Relation.name same
    exact fresh name' listed (Segment.name_infix_of_declared text inText name' listed')
  · rw [(kept shown).relations]
    exact List.mem_append_right _ member

/-- The atom in front of the line is not closed, and hides nothing. -/
theorem declaration_kept_iff_unclosed :
    let alone := TranslationUnit.ofText "A(x".toList (.empty 0) {} {}
    let whole := TranslationUnit.ofText "A(x\n.decl B()\n".toList (.empty 0) {} {}
    ¬ HidesNext "A(x".toList ∧ KeepsDeclaration ⟨["B"], [], .default⟩ alone whole := by
  intro alone whole
  have inCode : InCode "A(x".toList :=
    .plain (by decide) (.plain (by decide) (.plain (by decide) .nothing))
  have wellFormed : Declaration.WellFormed ⟨["B"], [], .default⟩ :=
    ⟨List.cons_ne_nil _ _, List.forall_mem_singleton.mpr (by decide), List.forall_mem_nil _⟩
  obtain ⟨iff, kept⟩ := declaration_kept_iff (.empty 0) {} {} inCode wellFormed
    (List.nodup_singleton "B") (List.forall_mem_singleton.mpr (by decide))
  have relations : whole.program.relations = [⟨"B", [], .default⟩] := by decide +kernel
  have shown := iff.mp fun relation member => relations ▸ member
  exact ⟨shown, kept shown⟩

/-- **A declaration is not kept behind every text.**  The full stop of the declaration
ends the clause on the line in front of it. -/
theorem not_declaration_always_kept :
    ¬ ∀ (symbols : SymbolTable) (report : ErrorReport) (debug : DebugReport) (text : List Char)
        (declared : Declaration), InCode text → declared.WellFormed → declared.names.Nodup →
      (∀ name ∈ declared.names, ¬ name.toList <:+: text) →
      let whole := TranslationUnit.ofText (text ++ '\n' :: (declared.text ++ ['\n'])) symbols
        report debug
      ∀ relation ∈ declared.relations, relation ∈ whole.program.relations := by
  intro always
  have inCode : InCode "A(x)".toList :=
    .plain (by decide) (.plain (by decide) (.plain (by decide) (.plain (by decide) .nothing)))
  have wellFormed : Declaration.WellFormed ⟨["B"], [], .default⟩ :=
    ⟨List.cons_ne_nil _ _, List.forall_mem_singleton.mpr (by decide), List.forall_mem_nil _⟩
  have kept := always (.empty 0) {} {} "A(x)".toList ⟨["B"], [], .default⟩ inCode wellFormed
    (List.nodup_singleton "B") (List.forall_mem_singleton.mpr (by decide))
    ⟨"B", [], .default⟩ List.mem_cons_self
  have lost : (TranslationUnit.ofText ("A(x)".toList ++ '\n' :: ((⟨["B"], [], .default⟩ :
      Declaration).text ++ ['\n'])) (.empty 0) {} {}).program.relations = [] := by decide +kernel
  rw [lost] at kept
  cases kept

-- Nor is one kept behind a blank that is no layout.
example : (TranslationUnit.ofText "\u00a0\n.decl B()\n".toList (.empty 0) {} {}).program.relations =
    [] := by
  decide +kernel

end Datalog
