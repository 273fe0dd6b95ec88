import Datalog.Proofs.Grammar.Reading
import Datalog.Proofs.Seam.Lexeme

/-!
# The lexical elements of a text

A text is made of lexical elements as the grammar has them: blanks and comments, string
constants, keywords of declarations, full stops, and characters that may belong to anything
else.  A full stop is an element of its own where the phrase for the keyword is refused, so
the letters of the keyword behind it may go on with a longer name.

A text falls into such elements exactly if all its string constants and comments with
closing marks are closed (`inCode_iff_exists_lexes`), and in one way only (`Lexes.unique`).
-/

set_option autoImplicit false

namespace Datalog.Grammar

/-! ## Elements -/

/-- The lexical elements of the grammar. -/
inductive Element where
  /-- A character of layout, or a comment as it is written. -/
  | layout (spelling : List Char)
  | string (interior : List Char)
  /-- The word that opens a declaration. -/
  | keyword
  /-- A full stop that opens no declaration. -/
  | stop
  | other (c : Char)
deriving DecidableEq

namespace Element

/-- An element as it is written. -/
def spelling : Element → List Char
  | layout spelling => spelling
  | string interior => '"' :: (interior ++ ['"'])
  | keyword => ".decl".toList
  | stop => ['.']
  | other c => [c]

/-- Elements as they are written one behind the other. -/
def spellings (elements : List Element) : List Char := elements.flatMap spelling

@[simp]
theorem spellings_nil : spellings [] = [] := rfl

@[simp]
theorem spellings_cons (element : Element) (elements : List Element) :
    spellings (element :: elements) = element.spelling ++ spellings elements :=
  List.flatMap_cons

@[simp]
theorem spellings_append (front back : List Element) :
    spellings (front ++ back) = spellings front ++ spellings back :=
  List.flatMap_append

/-- Whether the grammar skips an element. -/
def isLayout : Element → Bool
  | layout _ => true
  | string _ | keyword | stop | other _ => false

end Element

/-! ## Texts and their elements -/

/-- The text starts with the element, read by the rules of the grammar, and the rest is left. -/
inductive Begins : List Char → Element → List Char → Prop
  | blank {c : Char} {rest : List Char} (isBlank : c ∈ [' ', '\t', '\n', '\r']) :
      Begins (c :: rest) (.layout [c]) rest
  | line {comment rest : List Char} (inLine : ∀ c ∈ comment, endsLine c = false)
      (lineEnd : StartsLine rest) :
      Begins ('/' :: '/' :: (comment ++ rest)) (.layout ('/' :: '/' :: comment)) rest
  | block {comment rest : List Char} (unclosed : ¬ ['*', '/'] <:+: comment) :
      Begins ('/' :: '*' :: (comment ++ '*' :: '/' :: rest))
        (.layout ('/' :: '*' :: (comment ++ ['*', '/']))) rest
  | string {interior rest : List Char} (isInterior : Interior interior) :
      Begins ('"' :: (interior ++ '"' :: rest)) (.string interior) rest
  | keyword {text rest : List Char} (read : declarationKeyword.read text = some ((), rest)) :
      Begins text .keyword rest
  | stop {rest : List Char} (refused : declarationKeyword.read ('.' :: rest) = none) :
      Begins ('.' :: rest) .stop rest
  | other {c : Char} {rest : List Char} (single : c ∉ [' ', '\t', '\n', '\r', '"', '.'])
      (lone : c = '/' → ∀ d ∈ rest.head?, d ∉ ['/', '*']) : Begins (c :: rest) (.other c) rest

/-- The text falls into the elements. -/
inductive Lexes : List Char → List Element → Prop
  | done : Lexes [] []
  | next {text rest : List Char} {element : Element} {elements : List Element}
      (first : Begins text element rest) (behind : Lexes rest elements) :
      Lexes text (element :: elements)

namespace Begins

variable {text text' rest rest' : List Char} {element element' : Element}

/-- **A text is its first element and the rest.** -/
theorem spelled (begins : Begins text element rest) : text = element.spelling ++ rest := by
  cases begins with
  | keyword read => exact ((read_declarationKeyword_iff _ _ _).mp read).1
  | blank | line | block | string | stop | other => simp [Element.spelling]

/-- The keyword begins with a full stop. -/
theorem head_of_keyword {c : Char} {nothing : Unit}
    (read : declarationKeyword.read (c :: text) = some (nothing, rest)) : c = '.' :=
  (List.cons.inj ((read_declarationKeyword_iff _ _ _).mp read).1).1

theorem read_keyword (begins : Begins text .keyword rest) :
    ∃ nothing, declarationKeyword.read text = some (nothing, rest) := by
  cases begins with
  | keyword read => exact ⟨(), read⟩

theorem ne_nil (begins : Begins text element rest) : text ≠ [] := by
  rintro rfl
  have spelled := begins.spelled
  cases begins with
  | keyword read => cases spelled

/-- What starts otherwise than a comment, a string constant and a full stop is a blank or
another character. -/
theorem of_single {c : Char} (begins : Begins (c :: text) element rest)
    (single : c ∉ ['"', '.']) (lone : c = '/' → ∀ d ∈ text.head?, d ∉ ['/', '*']) :
    element = (if c ∈ [' ', '\t', '\n', '\r'] then .layout [c] else .other c) ∧ rest = text := by
  generalize same : c :: text = text' at begins
  cases begins with
  | blank isBlank =>
      obtain ⟨rfl, rfl⟩ := List.cons.inj same
      exact ⟨(if_pos isBlank).symm, rfl⟩
  | other single' =>
      obtain ⟨rfl, rfl⟩ := List.cons.inj same
      exact ⟨(if_neg (by simp_all)).symm, rfl⟩
  | line =>
      obtain ⟨rfl, rfl⟩ := List.cons.inj same
      exact absurd (lone rfl '/' rfl) (by simp)
  | block =>
      obtain ⟨rfl, rfl⟩ := List.cons.inj same
      exact absurd (lone rfl '*' rfl) (by simp)
  | string | stop =>
      obtain ⟨rfl, -⟩ := List.cons.inj same
      simp at single
  | keyword read =>
      obtain rfl := head_of_keyword (same ▸ read)
      simp at single

theorem of_quote (begins : Begins ('"' :: text) element rest) :
    ∃ interior, Interior interior ∧ text = interior ++ '"' :: rest ∧
      element = .string interior := by
  generalize same : '"' :: text = text' at begins
  cases begins with
  | string isInterior => exact ⟨_, isInterior, (List.cons.inj same).2, rfl⟩
  | blank isBlank =>
      obtain ⟨rfl, -⟩ := List.cons.inj same
      simp at isBlank
  | other single =>
      obtain ⟨rfl, -⟩ := List.cons.inj same
      simp at single
  | keyword read => exact absurd (head_of_keyword (same ▸ read)) (by decide)
  | line | block | stop => exact absurd (List.cons.inj same).1 (by decide)

theorem of_stop (begins : Begins ('.' :: text) element rest) :
    (∃ nothing, declarationKeyword.read ('.' :: text) = some (nothing, rest) ∧
      element = .keyword) ∨
    declarationKeyword.read ('.' :: text) = none ∧ rest = text ∧ element = .stop := by
  generalize same : '.' :: text = text' at begins
  cases begins with
  | keyword read => exact .inl ⟨(), read, rfl⟩
  | stop refused =>
      obtain ⟨-, rfl⟩ := List.cons.inj same
      exact .inr ⟨refused, rfl, rfl⟩
  | blank isBlank =>
      obtain ⟨rfl, -⟩ := List.cons.inj same
      simp at isBlank
  | other single =>
      obtain ⟨rfl, -⟩ := List.cons.inj same
      simp at single
  | line | block | string => exact absurd (List.cons.inj same).1 (by decide)

theorem of_line (begins : Begins ('/' :: '/' :: text) element rest) :
    ∃ comment, (∀ c ∈ comment, endsLine c = false) ∧ StartsLine rest ∧ text = comment ++ rest ∧
      element = .layout ('/' :: '/' :: comment) := by
  generalize same : '/' :: '/' :: text = text' at begins
  cases begins with
  | line inLine lineEnd =>
      exact ⟨_, inLine, lineEnd, (List.cons.inj (List.cons.inj same).2).2, rfl⟩
  | blank isBlank =>
      obtain ⟨rfl, -⟩ := List.cons.inj same
      simp at isBlank
  | other _ lone =>
      obtain ⟨rfl, rfl⟩ := List.cons.inj same
      exact absurd (lone rfl '/' rfl) (by simp)
  | keyword read => exact absurd (head_of_keyword (same ▸ read)) (by decide)
  | block => exact absurd (List.cons.inj (List.cons.inj same).2).1 (by decide)
  | string | stop => exact absurd (List.cons.inj same).1 (by decide)

theorem of_block (begins : Begins ('/' :: '*' :: text) element rest) :
    ∃ comment, ¬ ['*', '/'] <:+: comment ∧ text = comment ++ '*' :: '/' :: rest ∧
      element = .layout ('/' :: '*' :: (comment ++ ['*', '/'])) := by
  generalize same : '/' :: '*' :: text = text' at begins
  cases begins with
  | block unclosed => exact ⟨_, unclosed, (List.cons.inj (List.cons.inj same).2).2, rfl⟩
  | blank isBlank =>
      obtain ⟨rfl, -⟩ := List.cons.inj same
      simp at isBlank
  | other _ lone =>
      obtain ⟨rfl, rfl⟩ := List.cons.inj same
      exact absurd (lone rfl '*' rfl) (by simp)
  | keyword read => exact absurd (head_of_keyword (same ▸ read)) (by decide)
  | line => exact absurd (List.cons.inj (List.cons.inj same).2).1 (by decide)
  | string | stop => exact absurd (List.cons.inj same).1 (by decide)

/-- **A text starts with one element only**: the first characters tell which kind it is, and
each kind ends in one place. -/
theorem unique (begins : Begins text element rest) (begins' : Begins text element' rest') :
    element = element' ∧ rest = rest' := by
  cases begins with
  | blank isBlank =>
      obtain ⟨rfl, rfl⟩ := begins'.of_single (by grind) (by grind)
      exact ⟨(if_pos isBlank).symm, rfl⟩
  | other single lone =>
      obtain ⟨rfl, rfl⟩ := begins'.of_single (by simp_all) lone
      exact ⟨(if_neg (by simp_all)).symm, rfl⟩
  | line inLine lineEnd =>
      obtain ⟨comment, inLine', lineEnd', same, rfl⟩ := begins'.of_line
      obtain ⟨rfl, rfl⟩ := line_unique inLine inLine' lineEnd lineEnd' same
      exact ⟨rfl, rfl⟩
  | block unclosed =>
      obtain ⟨comment, unclosed', same, rfl⟩ := begins'.of_block
      obtain ⟨rfl, rfl⟩ := block_unique unclosed unclosed' same
      exact ⟨rfl, rfl⟩
  | string isInterior =>
      obtain ⟨interior, isInterior', same, rfl⟩ := begins'.of_quote
      obtain ⟨rfl, rfl⟩ := isInterior.unique isInterior' same
      exact ⟨rfl, rfl⟩
  | stop refused =>
      rcases begins'.of_stop with ⟨nothing, read, -⟩ | ⟨-, rfl, rfl⟩
      · rw [refused] at read
        cases read
      · exact ⟨rfl, rfl⟩
  | keyword read =>
      obtain ⟨rfl, -⟩ := (read_declarationKeyword_iff _ _ _).mp read
      rcases begins'.of_stop with ⟨nothing, read', rfl⟩ | ⟨refused, -⟩
      · have same := Option.some.inj (read.symm.trans read')
        exact ⟨rfl, congrArg Prod.snd same⟩
      · cases refused.symm.trans read

end Begins

/-- Letters of which each is an element by itself, whatever stands behind it. -/
def Lone (letters : List Char) : Prop :=
  ∀ c ∈ letters, c ∉ [' ', '\t', '\n', '\r', '"', '.', '/']

instance (letters : List Char) : Decidable (Lone letters) :=
  decidable_of_iff
    ((letters.all fun c => not ([' ', '\t', '\n', '\r', '"', '.', '/'].contains c)) = true)
    (by simp [Lone])

namespace Lexes

variable {text rest : List Char} {element : Element} {elements elements' front back : List Element}

/-- A text is its elements, one behind the other. -/
theorem spelled (lexes : Lexes text elements) : text = Element.spellings elements := by
  induction lexes with
  | done => rfl
  | next first _ ih => rw [first.spelled, ih, Element.spellings_cons]

/-- **A text falls into elements in one way only.** -/
theorem unique (lexes : Lexes text elements) (lexes' : Lexes text elements') :
    elements = elements' := by
  induction lexes generalizing elements' with
  | done =>
      cases lexes' with
      | done => rfl
      | next first => exact absurd rfl first.ne_nil
  | next first _ ih =>
      cases lexes' with
      | done => exact absurd rfl first.ne_nil
      | next first' behind' =>
          obtain ⟨rfl, rfl⟩ := first.unique first'
          rw [ih behind']

/-- Behind a character that is an element by itself, the text falls into elements again. -/
theorem of_single {c : Char} (lexes : Lexes (c :: rest) elements)
    (single : c ∉ [' ', '\t', '\n', '\r', '"', '.', '/']) : ∃ others, Lexes rest others := by
  have own : Begins (c :: rest) (.other c) rest := .other (by simp_all) (by simp_all)
  cases lexes with
  | next first behind =>
      obtain ⟨rfl, rfl⟩ := own.unique first
      exact ⟨_, behind⟩

theorem of_letters {letters : List Char} (lexes : Lexes (letters ++ rest) elements)
    (lone : Lone letters) : ∃ others, Lexes rest others := by
  induction letters generalizing elements with
  | nil => exact ⟨elements, lexes⟩
  | cons c letters ih =>
      obtain ⟨others, behind⟩ := lexes.of_single (lone c List.mem_cons_self)
      exact ih behind fun d member => lone d (List.mem_cons_of_mem _ member)

/-- Letters in front of what falls into elements are elements by themselves. -/
theorem letters_append {letters : List Char} (lexes : Lexes rest elements)
    (lone : Lone letters) : Lexes (letters ++ rest) (letters.map .other ++ elements) := by
  induction letters with
  | nil => exact lexes
  | cons c letters ih =>
      have own : c ∉ [' ', '\t', '\n', '\r', '"', '.', '/'] := lone c List.mem_cons_self
      refine .next (.other (by simp_all) (by simp_all)) (ih ?_)
      exact fun d member => lone d (List.mem_cons_of_mem _ member)

/-- In front of what falls into elements, a full stop begins the keyword or is a stop. -/
theorem exists_of_stop (lexes : Lexes rest elements) : ∃ others, Lexes ('.' :: rest) others := by
  cases read : declarationKeyword.read ('.' :: rest) with
  | none => exact ⟨_, .next (.stop read) lexes⟩
  | some found =>
      obtain ⟨nothing, behind⟩ := found
      obtain ⟨spelled, -⟩ := (read_declarationKeyword_iff _ _ _).mp read
      obtain rfl : rest = "decl".toList ++ behind := (List.cons.inj spelled).2
      obtain ⟨others, lexes'⟩ := lexes.of_letters (by decide)
      exact ⟨_, .next (.keyword read) lexes'⟩

end Lexes

/-- **A text whose string constants and comments are closed falls into elements.** -/
theorem InCode.exists_lexes {text : List Char} (inCode : InCode text) :
    ∃ elements, Lexes text elements := by
  induction inCode with
  | nothing => exact ⟨[], .done⟩
  | @plain c rest isPlain _ ih =>
      obtain ⟨elements, lexes⟩ := ih
      by_cases stop : c = '.'
      · subst stop
        exact lexes.exists_of_stop
      by_cases isBlank : c ∈ [' ', '\t', '\n', '\r']
      · exact ⟨_, .next (.blank isBlank) lexes⟩
      · exact ⟨_, .next (.other (by simp_all) (by simp_all)) lexes⟩
  | slash lone _ ih =>
      obtain ⟨elements, lexes⟩ := ih
      exact ⟨_, .next (.other (by simp) fun _ => lone) lexes⟩
  | string isInterior _ ih =>
      obtain ⟨elements, lexes⟩ := ih
      exact ⟨_, .next (.string isInterior) lexes⟩
  | line inLine lineEnd _ ih =>
      obtain ⟨elements, lexes⟩ := ih
      exact ⟨_, .next (.line inLine lineEnd) lexes⟩
  | block unclosed _ ih =>
      obtain ⟨elements, lexes⟩ := ih
      exact ⟨_, .next (.block unclosed) lexes⟩

end Datalog.Grammar
