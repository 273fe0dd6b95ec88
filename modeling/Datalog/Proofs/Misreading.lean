import Datalog.Proofs.Segment.Elements
import Datalog.Proofs.Terminator

/-!
# What recovery misreads

Recovery is to go on where the grammar's own elements say that a malformed statement ends:
behind its full stop, or in front of the first keyword that is not the first element of the
statement (`EndsAt`).  Recovery looks at characters instead, and it reads two things
otherwise than the grammar does.  A full stop with the letters of the keyword behind it
counts as the keyword even where the letters go on with a longer name.  And a blank that is
no layout to the grammar does not count as an element, so a keyword behind nothing else is
taken for the one of the malformed statement itself.

These are all the misreadings (`scan_reads_elements_iff`).  Everywhere else the scan stops
where the elements say, and where something is misread it stops elsewhere.
-/

set_option autoImplicit false

namespace Datalog

open Grammar
open Recovery (Leads)

variable {text rest : List Char} {elements front front' back back' : List Element}

/-! ## Where a malformed statement ends -/

namespace Grammar.Element

/-- The elements may all belong to one malformed statement. -/
inductive GoesOn : List Element → Prop
  | plain {elements : List Element} (noStop : .stop ∉ elements) (noKeyword : .keyword ∉ elements) :
      GoesOn elements
  /-- A keyword is the first element, apart from layout. -/
  | declaration {front back : List Element} (layout : ∀ element ∈ front, element.isLayout = true)
      (noStop : .stop ∉ back) (noKeyword : .keyword ∉ back) : GoesOn (front ++ .keyword :: back)

/-- The malformed statement at the start of a text is made of the first elements, and its
end is at the others. -/
inductive EndsAt : List Element → List Element → Prop
  /-- The statement ends with the first full stop. -/
  | stop {front left : List Element} (goesOn : GoesOn front) : EndsAt front (.stop :: left)
  /-- The statement ends in front of the first keyword that is not its first element. -/
  | keyword {front left : List Element} (goesOn : GoesOn front)
      (begun : ∃ element ∈ front, element.isLayout = false) : EndsAt front (.keyword :: left)
  /-- The statement takes the whole text. -/
  | never {front : List Element} (goesOn : GoesOn front) : EndsAt front []

/-- Where reading goes on: behind the full stop, and in front of everything else. -/
def resumption : List Element → List Element
  | .stop :: left => left
  | back => back

theorem suffix_resumption (back : List Element) :
    spellings (resumption back) <:+ spellings back := by
  cases back with
  | nil => exact List.suffix_rfl
  | cons element left =>
      cases element with
      | stop => exact List.suffix_cons '.' _
      | layout | string | keyword | other => exact List.suffix_rfl

theorem GoesOn.stop_notMem (goesOn : GoesOn elements) : .stop ∉ elements := by
  cases goesOn with
  | plain noStop => exact noStop
  | declaration layout noStop =>
      intro member
      rcases List.mem_append.mp member with before | behind
      · cases layout _ before
      · exact noStop (by simpa using behind)

/-- In front of a keyword there is only layout. -/
theorem GoesOn.isLayout_of_keyword (goesOn : GoesOn (front ++ .keyword :: back)) :
    ∀ element ∈ front, element.isLayout = true := by
  generalize same : front ++ .keyword :: back = elements at goesOn
  cases goesOn with
  | plain _ noKeyword => exact absurd (by simp [← same]) noKeyword
  | declaration layout noStop noKeyword =>
      rcases List.append_eq_append_iff.mp same with ⟨more, rfl, -⟩ | ⟨more, rfl, behind⟩
      · exact fun element member => layout element (List.mem_append_left _ member)
      · cases more with
        | nil => simpa using layout
        | cons element more =>
            obtain ⟨-, rfl⟩ := List.cons.inj behind
            simp at noKeyword

theorem EndsAt.goesOn (ends : EndsAt front back) : GoesOn front := by
  cases ends with
  | stop goesOn | keyword goesOn | never goesOn => exact goesOn

/-- A statement does not go on behind its end. -/
theorem EndsAt.eq_nil_of_goesOn (ends : EndsAt front (elements ++ back))
    (goesOn : GoesOn (front ++ elements)) : elements = [] := by
  cases elements with
  | nil => rfl
  | cons element elements =>
      cases ends with
      | stop => exact absurd (by simp) goesOn.stop_notMem
      | keyword _ begun =>
          obtain ⟨element, member, seen⟩ := begun
          rw [goesOn.isLayout_of_keyword element member] at seen
          cases seen

/-- **A malformed statement ends in one place only.** -/
theorem EndsAt.unique (ends : EndsAt front back) (ends' : EndsAt front' back')
    (same : front ++ back = front' ++ back') : front = front' ∧ back = back' := by
  rcases List.append_eq_append_iff.mp same with ⟨more, rfl, rfl⟩ | ⟨more, rfl, rfl⟩
  · obtain rfl := ends.eq_nil_of_goesOn ends'.goesOn
    simp
  · obtain rfl := ends'.eq_nil_of_goesOn ends.goesOn
    simp

/-- Elements up to the first full stop or keyword. -/
theorem exists_plain (elements : List Element) :
    ∃ front back, elements = front ++ back ∧ .stop ∉ front ∧ .keyword ∉ front ∧
      (back = [] ∨ (∃ left, back = .stop :: left) ∨ ∃ left, back = .keyword :: left) := by
  induction elements with
  | nil => exact ⟨[], [], rfl, by simp, by simp, .inl rfl⟩
  | cons element elements ih =>
      obtain ⟨front, back, rfl, noStop, noKeyword, ended⟩ := ih
      by_cases stop : element = .stop
      · exact ⟨[], _, rfl, by simp, by simp, .inr (.inl ⟨_, by rw [stop]⟩)⟩
      by_cases keyword : element = .keyword
      · exact ⟨[], _, rfl, by simp, by simp, .inr (.inr ⟨_, by rw [keyword]⟩)⟩
      · exact ⟨element :: front, back, rfl, by simp [Ne.symm stop, noStop],
          by simp [Ne.symm keyword, noKeyword], ended⟩

/-- **A malformed statement ends somewhere.** -/
theorem exists_endsAt (elements : List Element) :
    ∃ front back, elements = front ++ back ∧ EndsAt front back := by
  obtain ⟨front, back, rfl, noStop, noKeyword, rfl | ⟨left, rfl⟩ | ⟨left, rfl⟩⟩ :=
    exists_plain elements
  · exact ⟨front, [], rfl, .never (.plain noStop noKeyword)⟩
  · exact ⟨front, _, rfl, .stop (.plain noStop noKeyword)⟩
  by_cases begun : ∃ element ∈ front, element.isLayout = false
  · exact ⟨front, _, rfl, .keyword (.plain noStop noKeyword) begun⟩
  -- the keyword is the first element, and the statement goes on behind it
  have layout : ∀ element ∈ front, element.isLayout = true := by simpa using begun
  obtain ⟨inner, back, rfl, noStop', noKeyword', ended⟩ := exists_plain left
  have goesOn : GoesOn (front ++ .keyword :: inner) := .declaration layout noStop' noKeyword'
  have begun : ∃ element ∈ front ++ .keyword :: inner, element.isLayout = false :=
    ⟨.keyword, by simp, rfl⟩
  refine ⟨front ++ .keyword :: inner, back, by simp, ?_⟩
  rcases ended with rfl | ⟨left, rfl⟩ | ⟨left, rfl⟩
  · exact .never goesOn
  · exact .stop goesOn
  · exact .keyword goesOn begun

/-! ## What recovery sees -/

/-- Whether recovery sees nothing in an element: it does not in layout, nor in a blank of
any other kind. -/
def isFaint : Element → Bool
  | layout _ => true
  | other c => Text.isBlank c
  | string _ | keyword | stop => false

/-- What stands at the end of a malformed statement is not what recovery takes it for. -/
inductive Misread : List Element → List Element → Prop
  /-- The full stop is taken for the keyword, because of the letters behind it. -/
  | lookalike {front left : List Element} (letters : "decl".toList <+: spellings left) :
      Misread front (.stop :: left)
  /-- The keyword is taken for the first element, because only blanks stand in front. -/
  | faint {front left : List Element} (faint : ∀ element ∈ front, element.isFaint = true) :
      Misread front (.keyword :: left)

end Grammar.Element

open Grammar.Element

/-- Passing an element that is neither a full stop nor a keyword. -/
theorem Grammar.Begins.pass {element : Element} (begins : Begins text element rest)
    (noStop : element ≠ .stop) (noKeyword : element ≠ .keyword) (begun : Bool) :
    Recovery.passCode begun text = Recovery.passCode (begun || !element.isFaint) rest := by
  cases begins with
  | keyword => exact absurd rfl noKeyword
  | stop => exact absurd rfl noStop
  | blank isBlank => simpa [isFaint] using Recovery.passCode_of_blank begun isBlank _
  | line inLine lineEnd =>
      rw [Recovery.passCode, Recovery.passLine_append begun inLine,
        Recovery.passLine_of_startsLine begun lineEnd]
      simp [isFaint]
  | block unclosed =>
      rw [Recovery.passCode, Recovery.passBlock_append begun unclosed]
      simp [isFaint]
  | string isInterior =>
      rw [Recovery.passCode, Recovery.passString_append isInterior]
      simp [isFaint]
  | @other c rest single lone =>
      rw [Recovery.passCode.eq_6]
      · rfl
      · rintro behind isSlash rfl
        exact absurd (lone isSlash '/' rfl) (by simp)
      · rintro behind isSlash rfl
        exact absurd (lone isSlash '*' rfl) (by simp)
      · rintro rfl
        simp at single
      · rintro rfl
        simp at single

/-- **Recovery passes elements one by one**, as far as there is no full stop and no keyword,
and keeps in mind whether it has seen anything in them. -/
theorem Grammar.Lexes.pass (lexes : Lexes text (front ++ back)) (noStop : .stop ∉ front)
    (noKeyword : .keyword ∉ front) (begun : Bool) :
    ∃ rest, Lexes rest back ∧ Recovery.passCode begun text =
      Recovery.passCode (begun || front.any fun element => !element.isFaint) rest := by
  induction front generalizing text begun with
  | nil => exact ⟨text, lexes, by simp⟩
  | cons element front ih =>
      simp only [List.mem_cons, not_or] at noStop noKeyword
      cases lexes with
      | next first behind =>
          obtain ⟨rest, lexes', passes⟩ :=
            ih behind noStop.2 noKeyword.2 (begun || !element.isFaint)
          refine ⟨rest, lexes', ?_⟩
          rw [first.pass (Ne.symm noStop.1) (Ne.symm noKeyword.1), passes, List.any_cons,
            Bool.or_assoc]

/-- Once something has been seen, letters are passed without a trace. -/
theorem Recovery.passCode_letters {letters : List Char} (plain : Plain letters) (rest : List Char) :
    passCode true (letters ++ rest) = passCode true rest := by
  induction letters with
  | nil => rfl
  | cons c letters ih =>
      rw [List.cons_append, passCode_of_single true (plain c List.mem_cons_self)]
      exact ih fun d member => plain d (List.mem_cons_of_mem _ member)

/-- Behind something that belongs to the statement, the keyword ends it. -/
theorem Recovery.passCode_of_begun (rest : List Char) :
    passCode true (".decl".toList ++ rest) = ".decl".toList ++ rest := by
  have starts : "decl".toList.isPrefixOf ("decl".toList ++ rest) = true :=
    List.isPrefixOf_iff_prefix.mpr ⟨rest, rfl⟩
  exact (passCode.eq_5 true ("decl".toList ++ rest)).trans (by rw [if_pos starts]; rfl)

/-- **Recovery passes the elements of a statement**, and has seen something in them unless
all of them are faint. -/
theorem Grammar.Lexes.passes (lexes : Lexes text (front ++ back)) (goesOn : GoesOn front) :
    ∃ rest, Lexes rest back ∧ Recovery.resume text =
      Recovery.passCode (front.any fun element => !element.isFaint) rest := by
  cases goesOn with
  | plain noStop noKeyword =>
      obtain ⟨rest, lexes', passes⟩ := lexes.pass noStop noKeyword false
      exact ⟨rest, lexes', by rw [Recovery.resume, passes, Bool.false_or]⟩
  | @declaration before behind layout noStop noKeyword =>
      have unseen : (before.any fun element => !element.isFaint) = false := by
        rw [List.any_eq_false]
        intro element member
        cases element with
        | layout => simp [isFaint]
        | string | keyword | stop | other => cases layout _ member
      rw [List.append_assoc] at lexes
      obtain ⟨middle, lexes', passes⟩ := lexes.pass
        (fun member => by cases layout _ member) (fun member => by cases layout _ member) false
      rw [unseen] at passes
      cases lexes' with
      | next first others =>
          obtain ⟨nothing, read⟩ := first.read_keyword
          obtain ⟨rfl, -⟩ := (read_declarationKeyword_iff _ _ _).mp read
          obtain ⟨rest, lexes', passes'⟩ := others.pass noStop noKeyword true
          refine ⟨rest, lexes', ?_⟩
          rw [Recovery.resume, passes, Bool.or_self, Recovery.passCode_of_keyword,
            Recovery.passCode_letters (by decide), passes']
          simp [isFaint]

/-- **Recovery goes on where the elements say exactly if nothing is misread.** -/
theorem resume_eq_iff (lexes : Lexes text (front ++ back)) (ends : EndsAt front back) :
    Recovery.resume text = spellings (resumption back) ↔ ¬ Misread front back := by
  obtain ⟨rest, lexes', passes⟩ := lexes.passes ends.goesOn
  rw [passes, lexes'.spelled]
  cases ends with
  | never goesOn =>
      refine iff_of_true ?_ ?_
      · simp [Recovery.passCode, resumption]
      · rintro ⟨⟩
  | @stop left goesOn =>
      have leads : Leads _ ('.' :: spellings left) :=
        ⟨front.any fun element => !element.isFaint, rfl⟩
      constructor
      · intro same misread
        cases misread with
        | lookalike letters => exact leads.ne_of_keyword letters same
      · intro read
        exact leads.eq_of_stop fun letters => read (.lookalike letters)
  | @keyword left goesOn begun =>
      change Recovery.passCode _ (".decl".toList ++ spellings left) =
        ".decl".toList ++ spellings left ↔ _
      cases seen : front.any fun element => !element.isFaint with
      | true =>
          refine iff_of_true (Recovery.passCode_of_begun _) ?_
          intro misread
          cases misread with
          | faint unseen =>
              obtain ⟨element, member, sight⟩ := List.any_eq_true.mp seen
              simp [unseen element member] at sight
      | false =>
          refine iff_of_false ?_ (not_not.mpr (.faint ?_))
          · rw [Recovery.passCode_of_keyword]
            intro same
            have shorter :=
              (Recovery.passCode_suffix true ("decl".toList ++ spellings left)).length_le
            rw [same] at shorter
            exact absurd shorter (by simp)
          · simpa using seen

/-- **A scan stops where the elements of the text say, but for what is misread.** -/
theorem scan_reads_elements_iff (inCode : InCode text) :
    ∃ elements, Lexes text elements ∧ (∀ others, Lexes text others → others = elements) ∧
      ∃ front back, elements = front ++ back ∧ EndsAt front back ∧
        (∀ front' back', elements = front' ++ back' → EndsAt front' back' →
          front' = front ∧ back' = back) ∧
        (Recovery.scan text .code false 0 text =
            some (Text.offset text (spellings (resumption back)).length) ↔
          ¬ Misread front back) := by
  obtain ⟨elements, lexes⟩ := inCode.exists_lexes
  obtain ⟨front, back, rfl, ends⟩ := exists_endsAt elements
  refine ⟨front ++ back, lexes, fun others lexes' => lexes'.unique lexes, front, back, rfl, ends,
    fun front' back' same ends' => ends'.unique ends same.symm, ?_⟩
  rw [← resume_eq_iff lexes ends, Recovery.scan_start_eq_iff]
  rw [lexes.spelled, spellings_append]
  exact (suffix_resumption back).trans (List.suffix_append _ _)

/-- Behind a full stop in a string constant and one in a comment, the scan stops in front of
the keyword, as the elements say. -/
theorem scan_reads_elements_iff_quoted :
    Recovery.scan "x \".\"/*.*/.decl".toList .code false 0 "x \".\"/*.*/.decl".toList =
      some 10 := by
  have interior : Interior ['.'] := .plain (by decide) (by decide) .nil
  have unclosed : ¬ ['*', '/'] <:+: ['.'] := by decide
  have inCode : InCode "x \".\"/*.*/.decl".toList := by
    refine .plain (by decide) (.plain (by decide) (.string interior (.block unclosed ?_)))
    repeat' first | exact .nothing | refine .plain (by decide) ?_
  have lexes : Lexes "x \".\"/*.*/.decl".toList
      ([.other 'x', .layout [' '], .string ['.'], .layout "/*.*/".toList] ++ [.keyword]) := by
    refine .next (.other (by decide) (by decide)) (.next (.blank (by decide)) ?_)
    exact .next (.string interior) (.next (.block unclosed) (.next (.keyword rfl) .done))
  obtain ⟨elements, -, unique, front, back, rfl, -, only, stops⟩ := scan_reads_elements_iff inCode
  obtain ⟨rfl, rfl⟩ := only _ _ (unique _ lexes).symm
    (.keyword (.plain (by decide) (by decide)) ⟨.other 'x', by decide, rfl⟩)
  refine stops.mpr fun misread => ?_
  cases misread with
  | faint unseen => exact absurd (unseen (.other 'x') (by decide)) (by decide)

/-- Behind a full stop the letters of the keyword may begin a longer name, and then the scan
stops in front of the full stop. -/
theorem not_scan_always_reads_elements :
    ¬ ∀ text front back, text ≠ [] → InCode text → Lexes text (front ++ back) →
      EndsAt front back → Recovery.scan text .code false 0 text =
        some (Text.offset text (spellings (resumption back)).length) := by
  intro reads
  have behind : Lexes ("declare(x)".toList ++ ['.']) ("declare(x)".toList.map .other ++ [.stop]) :=
    .letters_append (.next (.stop rfl) .done) (by decide)
  have second : Lexes ("2)".toList ++ ".declare(x).".toList)
      ("2)".toList.map .other ++ .stop :: ("declare(x)".toList.map .other ++ [.stop])) :=
    .letters_append (.next (.stop rfl) behind) (by decide)
  have lexes : Lexes ("A(1".toList ++ " 2).declare(x).".toList)
      ("A(1".toList.map .other ++ .layout [' '] ::
        ("2)".toList.map .other ++ .stop :: ("declare(x)".toList.map .other ++ [.stop]))) :=
    .letters_append (.next (.blank (by decide)) second) (by decide)
  rw [← List.cons_append, ← List.append_assoc] at lexes
  have inCode : InCode "A(1 2).declare(x).".toList := by
    repeat' first | exact .nothing | refine .plain (by decide) ?_
  have stopped := reads _ _ _ (by decide) inCode lexes (.stop (.plain (by decide) (by decide)))
  exact absurd stopped (by decide +kernel)

end Datalog
