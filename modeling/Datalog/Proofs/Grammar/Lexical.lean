import Datalog.Grammar.Lexeme
import Datalog.Proofs.Grammar.Layout
import Mathlib.Data.List.Basic
import Mathlib.Data.List.TakeWhile

/-!
# The lexical elements

What a word, a numeral, a string constant and an operator are, said of the text
and without a reader.  Each of them is as long as it can be, so its statement
also says what must not follow: no character of a name follows a word or a
numeral, and no equality sign follows a lone angle.

Every reader of the lexical elements finds exactly what is there
(`readName_eq_some_iff` and its companions), and what is there is there in one
way only (`Word.unique` and its companions).
-/

set_option autoImplicit false

namespace Datalog.Grammar

/-! ## Words -/

/-- Whether a name can be written as a word. -/
def isName (name : String) : Bool :=
  match name.toList with
  | [] => false
  | c :: rest => startsName c && rest.all continuesName

/-- The text is a word with the given spelling, followed by the rest. -/
structure Word (text : List Char) (name : String) (rest : List Char) : Prop where
  spelled : text = name.toList ++ rest
  isName : isName name = true
  ends : beginsInName rest = false

theorem isName_iff (name : String) :
    isName name = true ↔
      ∃ c rest, name.toList = c :: rest ∧ startsName c = true ∧
        ∀ d ∈ rest, continuesName d = true := by
  unfold isName
  cases name.toList with
  | nil => simp
  | cons c rest =>
      simp only [Bool.and_eq_true, List.all_eq_true]
      constructor
      · intro parts
        exact ⟨c, rest, rfl, parts⟩
      · rintro ⟨d, spelling, same, parts⟩
        cases same
        exact parts

theorem continuesName_of_startsName {c : Char} (starts : startsName c = true) :
    continuesName c = true := by
  simp only [startsName, continuesName, Char.isAlphanum, Bool.or_eq_true] at starts ⊢
  exact starts.imp_left .inl

theorem continuesName_of_isDigit {c : Char} (digit : c.isDigit = true) :
    continuesName c = true := by
  simp [continuesName, Char.isAlphanum, digit]

/-- Every character of a name may stand in a name. -/
theorem continuesName_of_mem {name : String} (named : isName name = true) {c : Char}
    (member : c ∈ name.toList) : continuesName c = true := by
  obtain ⟨d, rest, spelling, starts, continues⟩ := (isName_iff name).mp named
  rw [spelling] at member
  rcases List.mem_cons.mp member with rfl | member
  · exact continuesName_of_startsName starts
  · exact continues c member

theorem beginsInName_eq_false_iff (text : List Char) :
    beginsInName text = false ↔ ∀ c ∈ text.head?, continuesName c = false := by
  cases text <;> simp [beginsInName]

/-- The longest start of a text with a property, where it is known. -/
theorem takeWhile_of_ends {p : Char → Bool} {front rest : List Char}
    (all : ∀ c ∈ front, p c = true) (ends : ∀ c ∈ rest.head?, p c = false) :
    (front ++ rest).takeWhile p = front := by
  rw [List.takeWhile_append_of_pos all]
  cases rest with
  | nil => simp
  | cons c rest => simp [ends c (by simp)]

theorem dropWhile_of_ends {p : Char → Bool} {front rest : List Char}
    (all : ∀ c ∈ front, p c = true) (ends : ∀ c ∈ rest.head?, p c = false) :
    (front ++ rest).dropWhile p = rest := by
  rw [List.dropWhile_append_of_pos all]
  cases rest with
  | nil => simp
  | cons c rest => simp [ends c (by simp)]

theorem head?_dropWhile_eq_false (p : Char → Bool) (text : List Char) :
    ∀ c ∈ (text.dropWhile p).head?, p c = false := by
  intro c head
  have stops := List.head?_dropWhile_not p text
  rw [Option.mem_def.mp head] at stops
  simpa using stops

/-- **The reader of names finds the word that is there.** -/
theorem readName_eq_some_iff (text : List Char) (name : String) (rest : List Char) :
    readName text = some (name, rest) ↔ Word text name rest := by
  constructor
  · intro read
    cases text with
    | nil => simp [readName] at read
    | cons c text =>
        simp only [readName] at read
        split at read
        next starts =>
          obtain ⟨rfl, rfl⟩ := Prod.mk.inj (Option.some.inj read)
          refine ⟨by simp, (isName_iff _).mpr ⟨c, _, String.toList_ofList, starts, ?_⟩, ?_⟩
          · intro d member
            exact List.mem_takeWhile_imp member
          · exact (beginsInName_eq_false_iff _).mpr (head?_dropWhile_eq_false _ _)
        next => cases read
  · rintro ⟨rfl, named, ends⟩
    obtain ⟨c, spelling, same, starts, continues⟩ := (isName_iff name).mp named
    rw [beginsInName_eq_false_iff] at ends
    rw [same, List.cons_append, readName, if_pos starts, takeWhile_of_ends continues ends,
      dropWhile_of_ends continues ends, ← same, String.ofList_toList]

theorem Word.unique {text rest rest' : List Char} {name name' : String}
    (word : Word text name rest) (word' : Word text name' rest') :
    name = name' ∧ rest = rest' := by
  rw [← readName_eq_some_iff] at word word'
  have same := word.symm.trans word'
  exact ⟨congrArg Prod.fst (Option.some.inj same), congrArg Prod.snd (Option.some.inj same)⟩

theorem Word.starts {text rest : List Char} {name : String} (word : Word text name rest) :
    ∃ c behind, text = c :: behind ∧ startsName c = true := by
  obtain ⟨c, spelling, same, starts, -⟩ := (isName_iff name).mp word.isName
  exact ⟨c, spelling ++ rest, by rw [word.spelled, same, List.cons_append], starts⟩

theorem Word.suffix {text rest : List Char} {name : String} (word : Word text name rest) :
    rest <:+ text := word.spelled ▸ List.suffix_append _ _

theorem Word.length_lt {text rest : List Char} {name : String} (word : Word text name rest) :
    rest.length < text.length := by
  obtain ⟨c, spelling, same, -⟩ := (isName_iff name).mp word.isName
  rw [word.spelled, same]
  simp only [List.length_append, List.length_cons]
  omega

/-- A word is read by its meaning. -/
theorem readWord_eq_some_iff {α : Type} (meaning : String → Option α) (text : List Char)
    (a : α) (rest : List Char) :
    readWord meaning text = some (a, rest) ↔
      ∃ name, Word text name rest ∧ meaning name = some a := by
  simp only [readWord, ← readName_eq_some_iff]
  cases readName text with
  | none => simp
  | some found =>
      obtain ⟨name, left⟩ := found
      constructor
      · intro read
        simp only [Option.bind_eq_bind, Option.bind_some, Option.bind_eq_some_iff] at read
        obtain ⟨b, known, same⟩ := read
        obtain ⟨rfl, rfl⟩ := Prod.mk.inj (Option.some.inj same)
        exact ⟨name, rfl, known⟩
      · rintro ⟨name', same, known⟩
        obtain ⟨rfl, rfl⟩ := Prod.mk.inj (Option.some.inj same)
        simp [known]

/-- A word with one spelling is read where it stands. -/
theorem readLiteralWord_iff (spelling : String) (text : List Char) (nothing : Unit)
    (rest : List Char) :
    readWord (fun name => if name = spelling then some () else none) text = some (nothing, rest) ↔
      Word text spelling rest := by
  rw [readWord_eq_some_iff]
  constructor
  · rintro ⟨name, word, meant⟩
    split at meant
    next same => exact same ▸ word
    next => cases meant
  · intro word
    exact ⟨spelling, word, by simp⟩

theorem read_variableName_iff (text : List Char) (name : String) (rest : List Char) :
    variableName.read text = some (name, rest) ↔
      Word text name rest ∧ name ∉ reservedWords := by
  change readWord (fun name => if name ∈ reservedWords then none else some name) text =
    some (name, rest) ↔ _
  rw [readWord_eq_some_iff]
  constructor
  · rintro ⟨name', word, meant⟩
    split at meant
    next => cases meant
    next unreserved =>
      obtain rfl := Option.some.inj meant
      exact ⟨word, unreserved⟩
  · rintro ⟨word, unreserved⟩
    exact ⟨name, word, if_neg unreserved⟩

/-- The word for a constant condition. -/
def truthWord (value : Bool) : String := if value then "true" else "false"

theorem read_truth_iff (text : List Char) (value : Bool) (rest : List Char) :
    truth.read text = some (value, rest) ↔ Word text (truthWord value) rest := by
  change readWord (fun name => if name = "true" then some true
    else if name = "false" then some false else none) text = some (value, rest) ↔ _
  rw [readWord_eq_some_iff]
  constructor
  · rintro ⟨name, word, meant⟩
    split at meant
    next same =>
        obtain rfl := Option.some.inj meant
        rwa [same] at word
    next =>
        split at meant
        next same =>
            obtain rfl := Option.some.inj meant
            rwa [same] at word
        next => cases meant
  · intro word
    refine ⟨truthWord value, word, ?_⟩
    cases value <;> rfl

theorem read_declarationKeyword_iff (text : List Char) (nothing : Unit) (rest : List Char) :
    declarationKeyword.read text = some (nothing, rest) ↔
      text = ".decl".toList ++ rest ∧ beginsInName rest = false := by
  change (do
    let rest ← ".decl".toList.isPrefixOf? text
    if beginsInName rest then none else some ((), rest)) = some (nothing, rest) ↔ _
  rw [Option.bind_eq_bind, Option.bind_eq_some_iff]
  constructor
  · rintro ⟨left, found, read⟩
    split at read
    · cases read
    next ends =>
      obtain rfl : left = rest := congrArg Prod.snd (Option.some.inj read)
      exact ⟨(List.isPrefixOf?_eq_some_iff_append_eq.mp found).symm, by simpa using ends⟩
  · rintro ⟨same, ends⟩
    exact ⟨rest, List.isPrefixOf?_eq_some_iff_append_eq.mpr same.symm, by simp [ends]⟩

theorem read_qualifier_iff (text : List Char) (representation : Representation)
    (rest : List Char) :
    qualifier.read text = some (representation, rest) ↔
      ∃ word, representation.qualifier? = some word ∧ Word text word rest := by
  refine (readWord_eq_some_iff Representation.ofQualifier? _ _ _).trans ?_
  simp only [Representation.ofQualifier?_eq_some_iff]
  exact exists_congr fun word => and_comm

theorem ofKeyword?_eq_some_iff (name : String) (kind : AggregateKind) :
    AggregateKind.ofKeyword? name = some kind ↔ kind.keyword = name := by
  constructor
  · intro found
    simpa using List.find?_some found
  · rintro rfl
    exact AggregateKind.ofKeyword?_keyword kind

/-! ## Solid characters -/

theorem solid_of_startsName {c : Char} (starts : startsName c = true) (rest : List Char) :
    Solid (c :: rest) := by
  refine ⟨c, rest, rfl, fun member => ?_⟩
  simp only [List.mem_cons, List.not_mem_nil, or_false] at member
  rcases member with rfl | rfl | rfl | rfl | rfl <;> exact absurd starts (by decide)

theorem Word.solid {text rest : List Char} {name : String} (word : Word text name rest) :
    Solid text := by
  obtain ⟨c, behind, rfl, starts⟩ := word.starts
  exact solid_of_startsName starts behind

/-- A word starts with none of the other characters that a phrase can start with. -/
theorem Word.head_ne {c : Char} {behind rest : List Char} {name : String}
    (word : Word (c :: behind) name rest) (other : startsName c = false) : False := by
  obtain ⟨d, _, same, starts⟩ := word.starts
  obtain ⟨rfl, -⟩ := List.cons.inj same
  rw [other] at starts
  cases starts

/-! ## Numerals -/

/-- The text is a numeral with the given spelling, followed by the rest. -/
structure NumberText (text spelling rest : List Char) : Prop where
  spelled : text = spelling ++ rest
  digits : ∃ digits, digits ≠ [] ∧ (∀ c ∈ digits, c.isDigit = true) ∧
    (spelling = digits ∨ spelling = '-' :: digits)
  ends : beginsInName rest = false

theorem head?_isDigit_of_ends {rest : List Char} (ends : beginsInName rest = false) :
    ∀ c ∈ rest.head?, c.isDigit = false := by
  intro c head
  have free := (beginsInName_eq_false_iff rest).mp ends c head
  simp only [continuesName, Char.isAlphanum, Bool.or_eq_false_iff] at free
  exact free.1.2

theorem readDigits_append {digits rest : List Char} (some : digits ≠ [])
    (all : ∀ c ∈ digits, c.isDigit = true) (ends : ∀ c ∈ rest.head?, c.isDigit = false) :
    readDigits (digits ++ rest) = .some (digits, rest) := by
  rw [readDigits, takeWhile_of_ends all ends, dropWhile_of_ends all ends]
  cases digits with
  | nil => exact absurd rfl some
  | cons c digits => simp [all c (by simp)]

theorem of_readDigits {text digits rest : List Char}
    (read : readDigits text = some (digits, rest)) :
    text = digits ++ rest ∧ digits ≠ [] ∧ ∀ c ∈ digits, c.isDigit = true := by
  unfold readDigits at read
  split at read
  next starts =>
    obtain ⟨rfl, rfl⟩ := Prod.mk.inj (Option.some.inj read)
    refine ⟨by simp, ?_, fun c member => List.mem_takeWhile_imp member⟩
    cases text with
    | nil => simp at starts
    | cons c text =>
        have digit : c.isDigit = true := by simpa using starts
        simp [digit]
  next => cases read

/-- The sign, and digits as the only alternative to it. -/
theorem readSigned_of_head_ne {text : List Char} (unsigned : ∀ c ∈ text.head?, c ≠ '-') :
    readSigned text = readDigits text := by
  unfold readSigned
  split
  · exact absurd rfl (unsigned '-' (by simp))
  · rfl

/-- **The reader of numerals finds the numeral that is there.** -/
theorem readNumeral_eq_some_iff (text : List Char) (numeral : Numeral) (rest : List Char) :
    readNumeral text = some (numeral, rest) ↔
      NumberText text numeral.spelling rest ∧ numeral.remaining = text.length := by
  constructor
  · intro read
    simp only [readNumeral, Option.bind_eq_bind, Option.bind_eq_some_iff] at read
    obtain ⟨⟨spelling, left⟩, signed, read⟩ := read
    split at read
    · cases read
    next ends =>
      obtain ⟨rfl, rfl⟩ := Prod.mk.inj (Option.some.inj read)
      refine ⟨?_, rfl⟩
      have free : beginsInName left = false := by simpa using ends
      unfold readSigned at signed
      split at signed
      next behind =>
        obtain ⟨⟨digits, left'⟩, found, same⟩ := Option.map_eq_some_iff.mp signed
        obtain ⟨rfl, rfl⟩ := Prod.mk.inj same
        obtain ⟨rfl, some, all⟩ := of_readDigits found
        exact ⟨rfl, ⟨digits, some, all, .inr rfl⟩, free⟩
      next =>
        obtain ⟨rfl, some, all⟩ := of_readDigits signed
        exact ⟨rfl, ⟨spelling, some, all, .inl rfl⟩, free⟩
  · rintro ⟨⟨spelled, ⟨digits, some, all, form⟩, ends⟩, place⟩
    have read : readSigned text = .some (numeral.spelling, rest) := by
      have plain := readDigits_append some all (head?_isDigit_of_ends ends)
      rcases form with form | form
      · rw [spelled, form, readSigned_of_head_ne _, plain]
        cases digits with
        | nil => exact absurd rfl some
        | cons c digits =>
            intro d head
            obtain rfl : c = d := by simpa using head
            intro isSign
            have digit := all c (by simp)
            rw [isSign] at digit
            exact absurd digit (by decide)
      · rw [spelled, form, List.cons_append, readSigned, plain]
        rfl
    simp only [readNumeral, read, Option.bind_eq_bind, Option.bind_some, ends, Bool.false_eq_true,
      if_false, ← place]

theorem NumberText.unique {text spelling spelling' rest rest' : List Char}
    (number : NumberText text spelling rest) (number' : NumberText text spelling' rest') :
    spelling = spelling' ∧ rest = rest' := by
  have read := (readNumeral_eq_some_iff text ⟨spelling, text.length⟩ rest).mpr ⟨number, rfl⟩
  have read' := (readNumeral_eq_some_iff text ⟨spelling', text.length⟩ rest').mpr ⟨number', rfl⟩
  rw [read] at read'
  simpa using read'

/-- A numeral starts with a digit or with the sign. -/
theorem NumberText.starts {text spelling rest : List Char}
    (number : NumberText text spelling rest) :
    ∃ c behind, text = c :: behind ∧ (c.isDigit = true ∨ c = '-') := by
  obtain ⟨rfl, ⟨digits, some, all, form⟩, -⟩ := number
  cases digits with
  | nil => exact absurd rfl some
  | cons c digits =>
      rcases form with rfl | rfl
      · exact ⟨c, digits ++ rest, rfl, .inl (all c (by simp))⟩
      · exact ⟨'-', c :: digits ++ rest, rfl, .inr rfl⟩

theorem NumberText.length_lt {text spelling rest : List Char}
    (number : NumberText text spelling rest) : rest.length < text.length := by
  obtain ⟨rfl, ⟨digits, some, -, form⟩, -⟩ := number
  have positive := List.length_pos_iff.mpr some
  rcases form with rfl | rfl <;> simp only [List.length_append, List.length_cons] <;> omega

/-! ## String constants -/

/-- What may stand between the quotes of a string constant. -/
inductive Interior : List Char → Prop
  | nil : Interior []
  /-- A backslash takes the next character with it. -/
  | escaped {c : Char} {rest : List Char} (behind : Interior rest) : Interior ('\\' :: c :: rest)
  | plain {c : Char} {rest : List Char} (notQuote : c ≠ '"') (notBackslash : c ≠ '\\')
      (behind : Interior rest) : Interior (c :: rest)

theorem readInterior_append {interior : List Char} (isInterior : Interior interior)
    (rest : List Char) : readInterior (interior ++ '"' :: rest) = some (interior, rest) := by
  induction isInterior with
  | nil => simp [readInterior]
  | escaped _ ih => simp [readInterior, ih]
  | @plain c interior notQuote notBackslash _ ih =>
      rw [List.cons_append, readInterior.eq_5 _ _ (fun is => notQuote is)
        (fun is _ => notBackslash is) (fun _ _ is _ => notBackslash is), ih]
      rfl

/-- **The reader of string constants finds the interior that is there.** -/
theorem readInterior_eq_some_iff (text interior rest : List Char) :
    readInterior text = some (interior, rest) ↔
      Interior interior ∧ text = interior ++ '"' :: rest := by
  constructor
  · fun_induction readInterior text generalizing interior rest with
    | case1 => intro read; cases read
    | case2 left =>
        intro read
        obtain ⟨rfl, rfl⟩ := Prod.mk.inj (Option.some.inj read)
        exact ⟨.nil, rfl⟩
    | case3 => intro read; cases read
    | case4 c left ih =>
        intro read
        obtain ⟨⟨inner, left'⟩, found, same⟩ := Option.map_eq_some_iff.mp read
        obtain ⟨rfl, rfl⟩ := Prod.mk.inj same
        obtain ⟨isInterior, rfl⟩ := ih _ _ found
        exact ⟨.escaped isInterior, rfl⟩
    | case5 c left notQuote notLast notEscaped ih =>
        intro read
        obtain ⟨⟨inner, left'⟩, found, same⟩ := Option.map_eq_some_iff.mp read
        obtain ⟨rfl, rfl⟩ := Prod.mk.inj same
        obtain ⟨isInterior, rfl⟩ := ih _ _ found
        refine ⟨.plain notQuote ?_ isInterior, rfl⟩
        intro isBackslash
        cases inner with
        | nil => exact notEscaped '"' left' isBackslash rfl
        | cons d inner => exact notEscaped d _ isBackslash rfl
  · rintro ⟨isInterior, rfl⟩
    exact readInterior_append isInterior rest

theorem Interior.unique {interior interior' rest rest' : List Char} (first : Interior interior)
    (second : Interior interior') (same : interior ++ '"' :: rest = interior' ++ '"' :: rest') :
    interior = interior' ∧ rest = rest' := by
  have read := readInterior_append first rest
  rw [same, readInterior_append second rest'] at read
  simpa [eq_comm] using read

theorem of_readString {text rest : List Char} {value : String}
    (read : readString text = some (value, rest)) :
    ∃ interior, Interior interior ∧ text = '"' :: (interior ++ '"' :: rest) ∧
      String.ofList (Text.unescape interior) = value := by
  unfold readString at read
  split at read
  next inner =>
    obtain ⟨⟨interior, rest'⟩, found, same⟩ := Option.map_eq_some_iff.mp read
    obtain ⟨rfl, rfl⟩ := Prod.mk.inj same
    obtain ⟨isInterior, rfl⟩ := (readInterior_eq_some_iff _ _ _).mp found
    exact ⟨interior, isInterior, rfl, rfl⟩
  next => cases read

theorem readString_append {interior : List Char} (isInterior : Interior interior)
    (rest : List Char) :
    readString ('"' :: (interior ++ '"' :: rest)) =
      some (String.ofList (Text.unescape interior), rest) := by
  rw [readString, readInterior_append isInterior]
  rfl

/-! ## Operators -/

/-- The text is the given operator, followed by the rest.  An angle with an
equality sign behind it is an operator of its own. -/
structure OperatorText (text : List Char) (operator : Comparison) (rest : List Char) : Prop where
  spelled : text = operator.operator.toList ++ rest
  ends : operator = .less ∨ operator = .greater → rest.head? ≠ some '='

/-- **The reader of operators finds the operator that is there.** -/
theorem readOperator_eq_some_iff (text : List Char) (operator : Comparison) (rest : List Char) :
    readOperator text = some (operator, rest) ↔ OperatorText text operator rest := by
  constructor
  · intro read
    unfold readOperator at read
    split at read <;> cases read
    case h_5 notLonger =>
      refine ⟨rfl, fun _ starts => ?_⟩
      obtain ⟨behind, rfl⟩ := List.head?_eq_some_iff.mp starts
      exact notLonger behind rfl
    case h_6 notLonger =>
      refine ⟨rfl, fun _ starts => ?_⟩
      obtain ⟨behind, rfl⟩ := List.head?_eq_some_iff.mp starts
      exact notLonger behind rfl
    all_goals exact ⟨rfl, by simp⟩
  · rintro ⟨rfl, ends⟩
    have lone (isAngle : operator = .less ∨ operator = .greater) (behind : List Char)
        (starts : rest = '=' :: behind) : False :=
      ends isAngle (by rw [starts]; rfl)
    cases operator with
    | less => exact readOperator.eq_5 rest (lone (.inl rfl))
    | greater => exact readOperator.eq_6 rest (lone (.inr rfl))
    | equal | notEqual | lessEqual | greaterEqual => rfl

theorem OperatorText.unique {text rest rest' : List Char} {operator operator' : Comparison}
    (first : OperatorText text operator rest) (second : OperatorText text operator' rest') :
    operator = operator' ∧ rest = rest' := by
  rw [← readOperator_eq_some_iff] at first second
  rw [first] at second
  simpa using second

theorem OperatorText.length_lt {text rest : List Char} {operator : Comparison}
    (spelled : OperatorText text operator rest) : rest.length < text.length := by
  have positive : 0 < operator.operator.toList.length := by cases operator <;> decide
  rw [spelled.spelled, List.length_append]
  omega

/-- An operator starts with one of four characters. -/
theorem OperatorText.starts {text rest : List Char} {operator : Comparison}
    (spelled : OperatorText text operator rest) :
    ∃ c behind, text = c :: behind ∧ c ∈ ['=', '!', '<', '>'] := by
  rw [spelled.spelled]
  cases operator <;> exact ⟨_, _, rfl, by decide⟩

end Datalog.Grammar
