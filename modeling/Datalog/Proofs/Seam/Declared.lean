import Datalog.Proofs.Seam.Reading
import Datalog.Proofs.Segment.Meaning

/-!
# A declaration behind a seam

What becomes of a line with a declaration is decided by the first segment of the text
in front of it.  If the segment leaves the line alone, it is the segment that is there
without the line, and the line stands behind what it leaves (`next_append`).  A
segment takes the line, or the full stop at its start, in two ways: it is a clause
whose only lack is the full stop (`meanings_of_unfinished`), or nothing in it belongs
to a statement, although it is not layout (`meanings_of_faint`).
-/

set_option autoImplicit false

namespace Datalog

open Grammar

/-! ## The line of a declaration -/

/-- What stands behind the keyword on a line with a declaration. -/
structure DeclarationMark (mark : List Char) : Prop where
  plain : Plain mark
  bounded : beginsInName mark = false ∧ ¬ Opens mark

/-- A line with a declaration, up to what follows its keyword. -/
def declarationLine (mark : List Char) : List Char := '\n' :: '.' :: ("decl".toList ++ mark)

theorem follows_declarationLine (mark : List Char) : Follows (declarationLine mark) :=
  .line _

theorem Plain.append {front behind : List Char} (plain : Plain front) (plain' : Plain behind) :
    Plain (front ++ behind) := by
  intro c member
  rcases List.mem_append.mp member with member | member
  · exact plain c member
  · exact plain' c member

theorem plain_name {name : String} (named : isName name = true) : Plain name.toList := by
  intro c member isStop
  have continues := continuesName_of_mem named member
  simp only [List.mem_cons, List.not_mem_nil, or_false] at isStop
  rcases isStop with rfl | rfl | rfl <;> exact absurd continues (by decide)

theorem plain_separate {pieces : List (List Char)} (plain : ∀ piece ∈ pieces, Plain piece) :
    Plain (separate [','] pieces) := by
  induction pieces with
  | nil => intro c member; cases member
  | cons piece rest ih =>
      have others := ih fun other member => plain other (List.mem_cons_of_mem _ member)
      have first := plain piece List.mem_cons_self
      cases rest with
      | nil => rwa [separate, List.intercalate_singleton]
      | cons next rest =>
          rw [separate_cons_cons]
          exact (first.append (by decide)).append others

theorem Attribute.plain_text {column : Attribute} (wellFormed : column.wellFormed = true) :
    Plain column.text := by
  rw [Attribute.wellFormed, Bool.and_eq_true] at wellFormed
  exact (plain_name wellFormed.1).append ((show Plain [':'] by decide).append
    (plain_name wellFormed.2))

theorem Declaration.plain_qualifierText (declaration : Declaration) :
    Plain declaration.qualifierText := by
  rw [Declaration.qualifierText]
  cases declaration.representation <;> decide

/-- Behind the keyword of a declaration a name comes next, and no parenthesis. -/
theorem Grammar.DerivesSignature.mark {mark rest : List Char} {names : List String}
    {attributes : List Attribute}
    (signature : DerivesSignature (".decl".toList ++ mark) names attributes rest) :
    beginsInName mark = false ∧ ¬ Opens mark := by
  cases signature with
  | @declared _ start _ _ _ _ _ keyword ends front listed =>
      obtain rfl := List.append_cancel_left keyword
      refine ⟨ends, ?_⟩
      have first : ∃ name stop, Word start name stop := by
        cases listed with
        | single word | more word => exact ⟨_, _, word⟩
      obtain ⟨name, stop, word⟩ := first
      rintro ⟨inner, opens⟩
      have same := front.unique opens word.solid ⟨'(', inner, rfl, by decide⟩
      subst same
      exact word.head_ne (by decide)

/-- **The line of a well-formed declaration starts with the keyword**, and neither a
parenthesis nor another full stop follows. -/
theorem Declaration.exists_mark {declaration : Declaration} (wellFormed : declaration.WellFormed) :
    ∃ mark, DeclarationMark mark ∧
      '\n' :: (declaration.text ++ ['\n']) = declarationLine mark := by
  let rest := declaration.qualifierText ++ ['\n']
  have written : declaration.text ++ ['\n'] = declaration.signatureText ++ rest := by
    rw [Declaration.text_eq, List.append_assoc]
  have names : Plain (separate [','] (declaration.names.map String.toList)) := by
    refine plain_separate fun piece member => ?_
    obtain ⟨name, listed, rfl⟩ := List.mem_map.mp member
    exact plain_name (wellFormed.names name listed)
  have columns : Plain (separate [','] (declaration.attributes.map Attribute.text)) := by
    refine plain_separate fun piece member => ?_
    obtain ⟨column, listed, rfl⟩ := List.mem_map.mp member
    exact Attribute.plain_text (wellFormed.attributes column listed)
  have behind : Plain rest := (plain_qualifierText declaration).append (by decide)
  have spelled : declaration.signatureText ++ rest = ".decl".toList ++ _ := keyword_append _ _ _
  have signature := signature_written wellFormed rest
  rw [spelled] at signature
  refine ⟨_, ⟨?_, signature.mark⟩, (congrArg _ (written.trans spelled)).trans rfl⟩
  exact (show Plain [' '] by decide).append (names.append ((show Plain ['('] by decide).append
    (columns.append ((show Plain [')'] by decide).append behind))))

/-- A line with a well-formed declaration says what it declares. -/
theorem Segment.meanings_declaration {declaration : Declaration}
    (wellFormed : declaration.WellFormed) :
    meanings (declaration.text ++ ['\n']) = [some (.inl declaration)] := by
  have closed : ¬ Opens ['\n'] := fun opens => by
    obtain ⟨inner, layout⟩ := opens_of_layout (layout_feed []) opens
    cases layout
  obtain ⟨tree, first, spelled⟩ :=
    Declaration.derives_text wellFormed (beginsInName_cons (c := '\n') (by decide) []) closed
  have derives : DerivesStatements (declaration.text ++ ['\n']) [.declaration tree] :=
    .next (.nothing _) (.declaration first) (.done (layout_feed []))
  rw [meanings_of_derives derives, ← spelled]
  rfl

/-! ## The line without its full stop -/

theorem Recovery.passCode_of_plain (begun : Bool) {letters : List Char} (plain : Plain letters) :
    passCode begun letters = [] := by
  obtain ⟨begun', passed⟩ := exists_passCode_append begun plain []
  rw [List.append_nil] at passed
  rw [passed, passCode]

/-- A text that is refused and passed as a whole says nothing, once. -/
theorem Segment.meanings_of_passed {text : List Char} (more : skip text ≠ [])
    (refused : nextStatement.read text = none) (passed : Recovery.resume text = []) :
    meanings text = [none] := by
  rw [meanings_eq_cons more, next_of_refused refused, passed,
    meanings_of_skip_eq_nil (by simp [skip])]
  rfl

/-- A statement starts with a full stop or with a word in front of a parenthesis. -/
theorem Grammar.read_statement_eq_none {text : List Char} (noStop : ∀ behind, text ≠ '.' :: behind)
    (unapplied : ∀ name mark, Word text name mark → ¬ Opens mark) : statement.read text = none := by
  rw [Option.eq_none_iff_forall_ne_some]
  rintro ⟨stated, rest⟩ read
  obtain ⟨tree, stop, derives, -⟩ := statement_sound read
  cases derives with
  | declaration contents =>
      obtain ⟨behind, starts⟩ := contents.starts
      exact noStop behind starts
  | clause contents =>
      obtain ⟨name, mark, word, opens⟩ := contents.opens
      exact unapplied name mark word opens

namespace DeclarationMark

variable {mark : List Char} (isMark : DeclarationMark mark)

include isMark

/-- Nothing in the line, apart from its full stop, stops recovery. -/
theorem passCode_bare (begun : Bool) : Recovery.passCode begun ("decl".toList ++ mark) = [] :=
  Recovery.passCode_of_plain begun ((show Plain _ by decide).append isMark.plain)

/-- Without its full stop the keyword opens nothing. -/
theorem meanings_bare : Segment.meanings ("decl".toList ++ mark) = [none] := by
  have settled : skip ("decl".toList ++ mark) = "decl".toList ++ mark :=
    Solid.skip_eq ⟨'d', _, rfl, by decide⟩
  refine Segment.meanings_of_passed ?_ ?_ (isMark.passCode_bare false)
  · rw [settled]
    exact List.cons_ne_nil _ _
  · rw [read_nextStatement, settled]
    refine read_statement_eq_none ?_ fun name mark' word => ?_
    · intro behind starts
      exact absurd (List.cons.inj starts).1 (by decide)
    · obtain ⟨-, rfl⟩ := word.unique (Word.of_isName (by decide) isMark.bounded.1)
      exact isMark.bounded.2

end DeclarationMark

/-! ## Segments in front of the line -/

/-- Only a full stop on the next line is missing from the statement at the start of
the text. -/
def Unfinished (text : List Char) : Prop :=
  ∃ stated, nextStatement.read (text ++ ['\n', '.']) = some (stated, [])

/-- A full stop behind a seam is no layout. -/
theorem Grammar.InCode.skip_append_ne_nil {front : List Char} (inCode : InCode front)
    (more : List Char) : skip (front ++ '\n' :: '.' :: more) ≠ [] := by
  have starts := (Follows.line more).startsLine
  by_cases done : skip front = []
  · rw [(layout_of_skip_eq_nil done starts).skip_eq, (layout_feed _).skip_eq,
      (solid_stop more).skip_eq]
    exact List.cons_ne_nil _ _
  · rw [inCode.skip_append done starts]
    exact List.append_ne_nil_of_left_ne_nil done _

/-- A full stop alone is no statement, so an unfinished text is more than layout. -/
theorem Unfinished.skip_ne_nil {text : List Char} (unfinished : Unfinished text) :
    skip text ≠ [] := by
  intro done
  obtain ⟨stated, read⟩ := unfinished
  rw [read_nextStatement, (layout_of_skip_eq_nil done (Follows.line []).startsLine).skip_eq,
    (layout_feed _).skip_eq, (solid_stop []).skip_eq,
    show statement.read ['.'] = none by decide] at read
  cases read

theorem startsName_eq_false_of_isBlank {c : Char} (isBlank : Text.isBlank c = true) :
    startsName c = false := by
  cases starts : startsName c with
  | false => rfl
  | true =>
      simp only [Text.isBlank, Text.blankRanges, List.any_cons, List.any_nil, Bool.or_false,
        Bool.or_eq_true, Bool.and_eq_true, decide_eq_true_eq] at isBlank
      rcases letter_of_startsName starts with (_ | _) | rfl
      · omega
      · omega
      · exact absurd isBlank (by decide)

/-- What starts with a blank is no statement. -/
theorem read_statement_of_blank {c : Char} (isBlank : Text.isBlank c = true) (rest : List Char) :
    statement.read (c :: rest) = none := by
  refine read_statement_eq_none ?_ fun name mark word =>
    (word.head_ne (startsName_eq_false_of_isBlank isBlank)).elim
  rintro behind ⟨⟩
  exact absurd isBlank (by decide)

namespace Faint

variable {front : List Char}

/-- Recovery passes a faint text without a trace. -/
theorem passCode (faint : Faint front) (begun : Bool) {other : List Char}
    (starts : StartsLine other) :
    Recovery.passCode begun (front ++ other) = Recovery.passCode begun other := by
  induction faint with
  | nothing => rfl
  | @blank c rest isBlank behind ih =>
      have single : c ∉ ['.', '"', '/'] := by
        intro member
        simp only [List.mem_cons, List.not_mem_nil, or_false] at member
        rcases member with rfl | rfl | rfl <;> exact absurd isBlank (by decide)
      rw [List.cons_append, Recovery.passCode_of_single begun single, isBlank, Bool.not_true,
        Bool.or_false, ih]
  | @line comment rest inLine lineEnd behind ih =>
      have ends := Seam.startsLine_append lineEnd starts
      simpa [Recovery.passCode, Recovery.passLine_append begun inLine,
        Recovery.passLine_of_startsLine begun ends] using ih
  | @block comment rest unclosed behind ih =>
      simpa [Recovery.passCode, Recovery.passBlock_append begun unclosed] using ih

/-- Behind the layout at its start a faint text goes on with a blank, if it goes on. -/
theorem skip_starts (faint : Faint front) (more : skip front ≠ []) :
    ∃ c rest, skip front = c :: rest ∧ Text.isBlank c = true := by
  induction faint with
  | nothing => exact absurd (by simp [skip]) more
  | @blank c rest isBlank behind ih =>
      by_cases layout : c ∈ [' ', '\t', '\n', '\r']
      · rw [(Layout.blank layout (.nothing rest)).skip_eq] at more ⊢
        exact ih more
      · refine ⟨c, rest, Solid.skip_eq ⟨c, rest, rfl, ?_⟩, isBlank⟩
        have noSlash : c ≠ '/' := by
          rintro rfl
          exact absurd isBlank (by decide)
        simp_all
  | @line comment rest inLine lineEnd behind ih =>
      rw [(Layout.line inLine lineEnd (.nothing rest)).skip_eq] at more ⊢
      exact ih more
  | @block comment rest unclosed behind ih =>
      rw [(Layout.block unclosed (.nothing rest)).skip_eq] at more ⊢
      exact ih more

end Faint

section InFront

variable {front mark : List Char} (inCode : InCode front)

include inCode

/-- **An unfinished clause takes the full stop of the line**, and the rest of the line is
malformed. -/
theorem meanings_of_unfinished (isMark : DeclarationMark mark) (unfinished : Unfinished front) :
    ∃ clause, Segment.meanings (front ++ declarationLine mark) = [some (.inr clause), none] := by
  have more := unfinished.skip_ne_nil
  obtain ⟨stated, read⟩ := unfinished
  rcases inCode.read more (.line []) (follows_declarationLine mark) read with
    ⟨left, stated', rest', inCode', -, -, layout, -⟩ | ⟨tail, -, -, moved⟩
  · exact (inCode'.skip_append_ne_nil [] (layout.skip_eq.trans (by simp [skip]))).elim
  · obtain ⟨spelled, rest', layout, read'⟩ := moved ("decl".toList ++ mark)
    refine ⟨spelled.map Numeral.value id, ?_⟩
    rw [declarationLine, Segment.meanings_eq_cons (inCode.skip_append_ne_nil _),
      Segment.next_of_read read', Segment.meanings_of_skip_eq layout.skip_eq.symm,
      isMark.meanings_bare]
    rfl

/-- **A faint piece is passed over along with the line**, unless it is layout. -/
theorem meanings_of_faint (isMark : DeclarationMark mark) (more : skip front ≠ [])
    (faint : Faint front) :
    Segment.meanings (front ++ declarationLine mark) = [none] := by
  have starts := (follows_declarationLine mark).startsLine
  refine Segment.meanings_of_passed (inCode.skip_append_ne_nil _) ?_ ?_
  · obtain ⟨c, rest, same, isBlank⟩ := faint.skip_starts more
    rw [read_nextStatement, inCode.skip_append more starts, same, List.cons_append]
    exact read_statement_of_blank isBlank _
  · rw [Recovery.resume, faint.passCode false starts, declarationLine,
      Recovery.passCode_of_blank false (by decide)]
    exact (Recovery.passCode_of_keyword mark).trans (isMark.passCode_bare true)

/-- **Any other piece leaves the line alone**: it is the segment that is there without
the line, and the line stands behind what it leaves. -/
theorem next_append (more : skip front ≠ []) (finished : ¬ Unfinished front)
    (distinct : ¬ Faint front) :
    InCode (Segment.next front).2 ∧
      (Segment.next (front ++ declarationLine mark)).1.meaning? =
        (Segment.next front).1.meaning? ∧
      skip (Segment.next (front ++ declarationLine mark)).2 =
        skip ((Segment.next front).2 ++ declarationLine mark) := by
  have follows := follows_declarationLine mark
  cases read : nextStatement.read front with
  | some found =>
      obtain ⟨stated, rest⟩ := found
      have read₁ := read
      rw [← List.append_nil front] at read₁
      rcases inCode.read more .nothing follows read₁ with
        ⟨left, stated', rest', inCode', meant, read', layout, layout'⟩ | ⟨tail, absurd, -⟩
      · rw [List.append_nil] at layout
        obtain ⟨kept, moved⟩ := layout.append_line follows.startsLine
        rw [Segment.next_of_read read, Segment.next_of_read read']
        exact ⟨kept inCode', congrArg some meant, layout'.skip_eq.symm.trans moved.skip_eq⟩
      · cases absurd
  | none =>
      have refused : nextStatement.read (front ++ declarationLine mark) = none := by
        rw [Option.eq_none_iff_forall_ne_some]
        rintro ⟨stated, rest⟩ read'
        rcases inCode.read more follows .nothing read' with
          ⟨left, stated', rest', -, -, read₁, -⟩ | ⟨tail, -, -, moved⟩
        · rw [List.append_nil, read] at read₁
          cases read₁
        · obtain ⟨spelled, rest', layout, read₁⟩ := moved []
          obtain rfl := List.suffix_nil.mp layout.suffix
          exact finished ⟨_, read₁⟩
      rw [Segment.next_of_refused read, Segment.next_of_refused refused]
      rcases inCode.recovers false with ⟨left, inCode', ends⟩ | ⟨seen, whether, passes⟩
      · have alone := ends [] Follows.nothing.startsLine
        rw [List.append_nil, List.append_nil] at alone
        rw [Recovery.resume, Recovery.resume, alone, ends _ follows.startsLine]
        exact ⟨inCode', rfl, rfl⟩
      · have alone := passes [] Follows.nothing.startsLine
        obtain rfl : seen = true := by
          rw [← Bool.not_eq_false, whether]
          exact fun unseen => distinct unseen.2
        -- the keyword of the line is behind something that has been passed
        have stops : Recovery.passCode true (declarationLine mark) =
            '.' :: ("decl".toList ++ mark) := by
          rw [declarationLine, Recovery.passCode_of_blank true (by decide), Recovery.passCode,
            if_pos (List.isPrefixOf_iff_prefix.mpr ⟨mark, rfl⟩)]
          rfl
        rw [List.append_nil, Recovery.passCode] at alone
        rw [Recovery.resume, Recovery.resume, alone, passes _ follows.startsLine, stops]
        exact ⟨.nothing, rfl, (layout_feed _).skip_eq.symm⟩

/-- What such a piece says comes first, and what is said behind it follows. -/
theorem meanings_append (more : skip front ≠ []) (finished : ¬ Unfinished front)
    (distinct : ¬ Faint front) :
    InCode (Segment.next front).2 ∧
      Segment.meanings (front ++ declarationLine mark) = (Segment.next front).1.meaning? ::
        Segment.meanings ((Segment.next front).2 ++ declarationLine mark) := by
  obtain ⟨kept, meant, left⟩ := @next_append _ mark inCode more finished distinct
  refine ⟨kept, ?_⟩
  rw [← meant, ← Segment.meanings_of_skip_eq left]
  exact Segment.meanings_eq_cons (inCode.skip_append_ne_nil _)

end InFront

end Datalog
