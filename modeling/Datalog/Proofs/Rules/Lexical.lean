import Datalog.Proofs.Grammar.Lexical
import Datalog.Proofs.Rules.Run

/-!
# Lexical rules

What the rules whose elements stand side by side answer, told by the readers of the lexical
elements and by the reader of layout.
-/

set_option autoImplicit false

namespace Datalog.Grammar

variable {code text rest stop : List Char} {first second contents : Expression}
  {answer : Option (List Char)} {record record' : Record}

/-! ## Answers -/

/-- What an expression answers at a text inside a closed rule. -/
def Answers (code : List Char) (expression : Expression) (text : List Char)
    (answer : Option (List Char)) : Prop :=
  ∀ record, Run code .closed expression text record answer record

namespace Answers

theorem sign {spelling : String} (spelled : text = spelling.toList ++ rest) :
    Answers code (.sign spelling) text (some rest) := fun _ => .sign spelled

theorem noSign {spelling : String} (other : ∀ rest, text ≠ spelling.toList ++ rest) :
    Answers code (.sign spelling) text none := fun _ => .noSign other

theorem both (taken : Answers code first text (some stop))
    (further : Answers code second stop answer) : Answers code (first >> second) text answer :=
  fun record => .both (taken record) (.sign rfl) (further record)

/-- What comes second answers whatever the first one leaves. -/
theorem andThen {further : List Char → Option (List Char)}
    (answers : Answers code first text answer)
    (answers' : ∀ stop, Answers code second stop (further stop)) :
    Answers code (first >> second) text (answer.bind further) := by
  cases answer with
  | some stop => exact answers.both (answers' stop)
  | none => exact fun record => .noFirst (answers record)

theorem noFirst (missed : Answers code first text none) :
    Answers code (first >> second) text none := fun record => .noFirst (missed record)

theorem left (taken : Answers code first text (some rest)) :
    Answers code (first <|> second) text (some rest) := fun record => .left (taken record)

theorem right (missed : Answers code first text none) (further : Answers code second text answer) :
    Answers code (first <|> second) text answer :=
  fun record => .right (missed record) (further record)

theorem either {answer' : Option (List Char)} (answers : Answers code first text answer)
    (answers' : Answers code second text answer') :
    Answers code (first <|> second) text (answer.or answer') := by
  cases answer with
  | some rest => exact answers.left
  | none => exact answers.right answers'

theorem maybe (taken : Answers code contents text (some rest)) :
    Answers code (.maybe contents) text (some rest) := fun record => .maybe (taken record)

theorem leftOut (missed : Answers code contents text none) :
    Answers code (.maybe contents) text (some text) := fun record => .leftOut (missed record)

theorem absent (missed : Answers code contents text none) :
    Answers code (.absent contents) text (some text) := fun record => .absent (missed record)

theorem present (taken : Answers code contents text (some rest)) :
    Answers code (.absent contents) text none := fun record => .present (taken record)

theorem more (taken : Answers code contents text (some stop))
    (others : Answers code (.more contents) stop answer) :
    Answers code (.more contents) text answer :=
  fun record => .more (.sign rfl) (taken record) (others record)

theorem last (missed : Answers code contents text none) :
    Answers code (.more contents) text (some text) :=
  fun record => .last (.sign rfl) (missed record)

/-- Side by side, the first element of a repetition is like the others. -/
theorem many (others : Answers code (.more contents) text answer) :
    Answers code (.many contents) text answer :=
  fun record => (others record).many_of_more (.sign rfl)

/-- Inside a closed rule, a rule answers what its body answers. -/
theorem rule (rule : Rule) (answers : Answers code rule.body text answer) :
    Answers code (.rule rule) text answer := by
  intro record
  have inside : rule.manner.inside .closed = .closed := by cases rule.manner <;> rfl
  have contents := answers record
  rw [← inside] at contents
  cases answer with
  | some rest => exact .rule contents
  | none => exact .noRuleUnrecorded contents (.inr rfl)

end Answers

/-! ## Signs and characters -/

theorem isPrefixOf?_eq_none_iff (front text : List Char) :
    front.isPrefixOf? text = none ↔ ∀ rest, text ≠ front ++ rest := by
  simp only [Option.eq_none_iff_forall_ne_some, ne_eq, List.isPrefixOf?_eq_some_iff_append_eq,
    eq_comm]

theorem run_sign (manner : Manner) (spelling : String) (text : List Char) (record : Record) :
    Run code manner (.sign spelling) text record (spelling.toList.isPrefixOf? text) record := by
  cases found : spelling.toList.isPrefixOf? text with
  | some rest => exact .sign (List.isPrefixOf?_eq_some_iff_append_eq.mp found).symm
  | none => exact .noSign ((isPrefixOf?_eq_none_iff _ _).mp found)

theorem answers_sign (spelling : String) (text : List Char) :
    Answers code (.sign spelling) text (spelling.toList.isPrefixOf? text) :=
  run_sign .closed spelling text

theorem answers_character (kind : Char → Bool) (c : Char) (rest : List Char) :
    Answers code (.character kind) (c :: rest) (if kind c then some rest else none) := by
  intro record
  split
  next holds => exact .character holds
  next other => exact .noCharacter (by simpa using other)

theorem answers_character_nil (kind : Char → Bool) : Answers code (.character kind) [] none :=
  fun _ => .noCharacter (by simp)

/-- A character of a kind, or an underscore. -/
theorem answers_orUnderscore (kind : Char → Bool) (c : Char) (rest : List Char) :
    Answers code (.character kind <|> .sign "_") (c :: rest)
      (if kind c || c == '_' then some rest else none) := by
  have underscore : "_".toList.isPrefixOf? (c :: rest) = if c == '_' then some rest else none := by
    rw [BEq.comm]
    rfl
  have answers : Answers code (.character kind <|> .sign "_") (c :: rest) _ :=
    (answers_character kind c rest).either (answers_sign "_" (c :: rest))
  rw [underscore] at answers
  convert answers using 1
  cases kind c <;> simp

theorem answers_orUnderscore_nil (kind : Char → Bool) :
    Answers code (.character kind <|> .sign "_") [] none :=
  (answers_character_nil kind).right (answers_sign "_" [])

/-- As many characters as there are of which it is known what is answered. -/
theorem answers_more {kind : Char → Bool}
    (answers : ∀ c rest, Answers code contents (c :: rest) (if kind c then some rest else none))
    (ends : Answers code contents [] none) (text : List Char) :
    Answers code (.more contents) text (some (text.dropWhile kind)) := by
  induction text with
  | nil => exact .last ends
  | cons c rest ih =>
      rw [List.dropWhile_cons]
      have answer := answers c rest
      split
      next holds =>
        rw [if_pos holds] at answer
        exact .more answer ih
      next other =>
        rw [if_neg other] at answer
        exact .last answer

theorem answers_nameCharacter (c : Char) (rest : List Char) :
    Answers code (.rule .nameCharacter) (c :: rest)
      (if continuesName c then some rest else none) :=
  .rule .nameCharacter (answers_orUnderscore Char.isAlphanum c rest)

theorem answers_nameCharacter_nil : Answers code (.rule .nameCharacter) [] none :=
  .rule .nameCharacter (answers_orUnderscore_nil Char.isAlphanum)

/-- No character of a name follows. -/
theorem answers_ends (text : List Char) :
    Answers code (.absent (.rule .nameCharacter)) text
      (if beginsInName text then none else some text) := by
  cases text with
  | nil => exact .absent answers_nameCharacter_nil
  | cons c rest =>
      have answers : Answers code (.rule .nameCharacter) (c :: rest) _ :=
        answers_nameCharacter c rest
      change Answers code _ _ (if continuesName c then none else some (c :: rest))
      split
      next holds =>
        rw [if_pos holds] at answers
        exact .present answers
      next other =>
        rw [if_neg other] at answers
        exact .absent answers

/-! ## Names and words -/

theorem answers_identifier (text : List Char) :
    Answers code (Rule.production .identifier).body text ((readName text).map Prod.snd) := by
  cases text with
  | nil => exact .noFirst (answers_orUnderscore_nil Char.isAlpha)
  | cons c rest =>
      have first : Answers code (.character Char.isAlpha <|> .sign "_") (c :: rest)
          (if startsName c then some rest else none) := answers_orUnderscore Char.isAlpha c rest
      have others : Answers code (.many (.rule .nameCharacter)) rest
          (some (rest.dropWhile continuesName)) :=
        (answers_more answers_nameCharacter answers_nameCharacter_nil rest).many
      rw [readName]
      split
      next starts =>
        rw [if_pos starts] at first
        exact first.both others
      next other =>
        rw [if_neg other] at first
        exact .noFirst first

theorem answers_oneOf (spellings : List String) (text : List Char) :
    Answers code (.oneOf spellings) text
      (spellings.findSome? fun spelling => spelling.toList.isPrefixOf? text) := by
  induction spellings with
  | nil => exact .present (answers_sign "" text)
  | cons spelling others ih =>
      have own : Answers code (.sign spelling) text _ := answers_sign spelling text
      rw [List.findSome?_cons]
      generalize spelling.toList.isPrefixOf? text = found at own
      cases others with
      | nil => cases found <;> exact own
      | cons =>
          cases found with
          | none => exact own.right ih
          | some rest => exact own.left

/-- No word starts with another one, so the word that stands there is the one that is found. -/
theorem answers_word {α : Type} {read : List Char → Option (α × List Char)}
    (spellings : List String)
    (apart : ∀ spelling ∈ spellings, ∀ other ∈ spellings,
      spelling.toList <+: other.toList → spelling = other)
    (reads : ∀ text rest, (∃ a, read text = some (a, rest)) ↔
      ∃ spelling ∈ spellings, text = spelling.toList ++ rest ∧ beginsInName rest = false)
    (text : List Char) : Answers code (.word spellings) text ((read text).map Prod.snd) := by
  have answers : Answers code (.word spellings) text _ :=
    (answers_oneOf spellings text).andThen answers_ends
  suffices same : (read text).map Prod.snd =
      (spellings.findSome? fun spelling => spelling.toList.isPrefixOf? text).bind
        fun stop => if beginsInName stop then none else some stop by
    rw [same]
    exact answers
  ext rest
  have taken : (read text).map Prod.snd = some rest ↔ ∃ a, read text = some (a, rest) := by
    simp
  rw [taken, reads, Option.bind_eq_some_iff]
  constructor
  · rintro ⟨spelling, member, spelled, ends⟩
    have here := List.isPrefixOf?_eq_some_iff_append_eq.mpr spelled.symm
    obtain ⟨stop, found⟩ : ∃ stop,
        (spellings.findSome? fun spelling => spelling.toList.isPrefixOf? text) = some stop := by
      rw [← Option.isSome_iff_exists, List.findSome?_isSome_iff]
      exact ⟨spelling, member, by rw [here]; rfl⟩
    obtain ⟨other, member', found'⟩ := List.exists_of_findSome?_eq_some found
    have spelled' := List.isPrefixOf?_eq_some_iff_append_eq.mp found'
    have same : spelling = other := by
      rcases List.prefix_or_prefix_of_prefix ⟨rest, spelled.symm⟩ ⟨stop, spelled'⟩ with
        shorter | longer
      · exact apart spelling member other member' shorter
      · exact (apart other member' spelling member longer).symm
    subst same
    rw [here] at found'
    obtain rfl := Option.some.inj found'
    exact ⟨rest, found, by rw [ends]; rfl⟩
  · rintro ⟨stop, found, ends⟩
    obtain ⟨spelling, member, found'⟩ := List.exists_of_findSome?_eq_some found
    split at ends
    · cases ends
    next free =>
      obtain rfl := Option.some.inj ends
      refine ⟨spelling, member, (List.isPrefixOf?_eq_some_iff_append_eq.mp found').symm, ?_⟩
      simpa using free

/-- Words that are read by their meaning. -/
theorem answers_readWord {α : Type} (meaning : String → Option α) (spellings : List String)
    (apart : ∀ spelling ∈ spellings, ∀ other ∈ spellings,
      spelling.toList <+: other.toList → spelling = other)
    (names : ∀ spelling ∈ spellings, isName spelling = true)
    (meant : ∀ name, (∃ a, meaning name = some a) ↔ name ∈ spellings) (text : List Char) :
    Answers code (.word spellings) text ((readWord meaning text).map Prod.snd) := by
  refine answers_word spellings apart (fun text rest => ?_) text
  simp only [readWord_eq_some_iff]
  constructor
  · rintro ⟨a, name, word, known⟩
    exact ⟨name, (meant name).mp ⟨a, known⟩, word.spelled, word.ends⟩
  · rintro ⟨name, member, spelled, ends⟩
    obtain ⟨a, known⟩ := (meant name).mpr member
    exact ⟨a, name, ⟨spelled, names name member, ends⟩, known⟩

theorem answers_nil (text : List Char) :
    Answers code (Rule.production .nil).body text ((nil.read text).map Prod.snd) :=
  answers_readWord (fun name => if name = "nil" then some () else none) ["nil"] (by decide)
    (by decide) (fun name => by simp) text

theorem answers_unnamed (text : List Char) :
    Answers code (Rule.production .unnamed).body text ((unnamed.read text).map Prod.snd) :=
  answers_readWord (fun name => if name = "_" then some () else none) ["_"] (by decide)
    (by decide) (fun name => by simp) text

theorem answers_truth (text : List Char) :
    Answers code (Rule.production .truth).body text ((truth.read text).map Prod.snd) := by
  refine answers_readWord (fun name => if name = "true" then some true
    else if name = "false" then some false else none) ["true", "false"] (by decide) (by decide)
    (fun name => ?_) text
  split_ifs <;> simp_all

theorem answers_aggregateKind (text : List Char) :
    Answers code (Rule.production .aggregateKind).body text
      ((aggregateKind.read text).map Prod.snd) := by
  refine answers_readWord _ ["min", "max", "count", "sum"] (by decide) (by decide)
    (fun name => ?_) text
  simp only [ofKeyword?_eq_some_iff]
  constructor
  · rintro ⟨kind, rfl⟩
    cases kind <;> decide
  · intro member
    simp only [List.mem_cons, List.not_mem_nil, or_false] at member
    rcases member with rfl | rfl | rfl | rfl
    exacts [⟨.min, rfl⟩, ⟨.max, rfl⟩, ⟨.count, rfl⟩, ⟨.sum, rfl⟩]

theorem answers_representation (text : List Char) :
    Answers code (Rule.production .representation).body text
      ((qualifier.read text).map Prod.snd) := by
  refine answers_readWord _ ["btree", "brie", "eqrel"] (by decide) (by decide) (fun name => ?_) text
  simp only [Representation.ofQualifier?_eq_some_iff]
  constructor
  · rintro ⟨representation, written⟩
    cases representation <;> cases written <;> decide
  · intro member
    simp only [List.mem_cons, List.not_mem_nil, or_false] at member
    rcases member with rfl | rfl | rfl
    exacts [⟨.btree, rfl⟩, ⟨.brie, rfl⟩, ⟨.eqrel, rfl⟩]

theorem answers_declarationKeyword (text : List Char) :
    Answers code (Rule.production .declarationKeyword).body text
      ((declarationKeyword.read text).map Prod.snd) := by
  refine answers_word [".decl"] (by decide) (fun text rest => ?_) text
  simp [read_declarationKeyword_iff]

theorem answers_reservedWord (text : List Char) :
    Answers code (.rule .reservedWord) text
      ((readWord (fun name => if name ∈ reservedWords then some () else none) text).map
        Prod.snd) := by
  refine .rule .reservedWord (answers_readWord _ reservedWords (by decide) (by decide) ?_ text)
  intro name
  split_ifs <;> simp_all

theorem answers_variable (text : List Char) :
    Answers code (Rule.production .variable).body text
      ((variableName.read text).map Prod.snd) := by
  have reserved : Answers code (.rule .reservedWord) text _ := answers_reservedWord text
  have name : Answers code (.of .identifier) text ((readName text).map Prod.snd) :=
    .rule _ (answers_identifier text)
  change Answers code _ text ((readWord
    (fun name => if name ∈ reservedWords then none else some name) text).map Prod.snd)
  unfold readWord at reserved ⊢
  cases found : readName text with
  | none =>
      rw [found] at reserved name
      exact reserved.absent.both name
  | some word =>
      obtain ⟨word, rest⟩ := word
      rw [found] at reserved name
      by_cases member : word ∈ reservedWords
      · simp only [member, if_true, Option.bind_eq_bind, Option.bind_some] at reserved ⊢
        exact .noFirst reserved.present
      · simp only [member, if_false, Option.bind_eq_bind, Option.bind_some] at reserved ⊢
        exact reserved.absent.both name

/-! ## Numbers, strings and signs -/

theorem answers_counter (text : List Char) :
    Answers code (Rule.production .counter).body text ((counter.read text).map Prod.snd) := by
  have answers : Answers code (.sign "$") text _ := answers_sign "$" text
  change Answers code (.sign "$") text
    ((("$".toList.isPrefixOf? text).map fun rest => ((), rest)).map Prod.snd)
  generalize "$".toList.isPrefixOf? text = found at answers
  cases found <;> exact answers

theorem answers_operator (text : List Char) :
    Answers code (Rule.production .operator).body text ((operator.read text).map Prod.snd) := by
  suffices same : (["!=", "<=", ">=", "=", "<", ">"].findSome? fun spelling =>
      spelling.toList.isPrefixOf? text) = (readOperator text).map Prod.snd by
    exact same ▸ answers_oneOf _ text
  fun_cases readOperator text <;>
    simp_all [List.isPrefixOf?, isPrefixOf?_eq_none_iff]

theorem answers_digits (text : List Char) :
    Answers code (.digit >> .many .digit) text ((readDigits text).map Prod.snd) := by
  have ends : Answers code .digit [] none := answers_character_nil _
  cases text with
  | nil => exact .noFirst ends
  | cons c rest =>
      have first : Answers code .digit (c :: rest) (if c.isDigit then some rest else none) :=
        answers_character Char.isDigit c rest
      have others : Answers code (.many .digit) rest (some (rest.dropWhile Char.isDigit)) :=
        (answers_more (answers_character Char.isDigit) ends rest).many
      rw [readDigits]
      cases holds : c.isDigit with
      | true =>
          rw [if_pos holds] at first
          simpa [holds] using first.both others
      | false =>
          rw [if_neg (by simp [holds])] at first
          simpa [holds] using first.noFirst

theorem answers_signed (text : List Char) :
    Answers code (.maybe (.sign "-") >> (.digit >> .many .digit)) text
      ((readSigned text).map Prod.snd) := by
  by_cases signed : ∃ rest, text = '-' :: rest
  · obtain ⟨rest, rfl⟩ := signed
    have mark : Answers code (.sign "-") ('-' :: rest) (some rest) := .sign rfl
    have answers := mark.maybe.both (answers_digits rest)
    rw [readSigned, Option.map_map]
    exact answers
  · have mark : Answers code (.sign "-") text none :=
      .noSign fun rest spelled => signed ⟨rest, spelled⟩
    have unsigned : ∀ c ∈ text.head?, c ≠ '-' := by
      rintro c member rfl
      obtain ⟨rest, rfl⟩ := List.head?_eq_some_iff.mp member
      exact signed ⟨rest, rfl⟩
    rw [readSigned_of_head_ne unsigned]
    exact mark.leftOut.both (answers_digits text)

theorem answers_number (text : List Char) :
    Answers code (Rule.production .number).body text ((number.read text).map Prod.snd) := by
  have grouped : Answers code ((.maybe (.sign "-") >> (.digit >> .many .digit)) >>
      .absent (.rule .nameCharacter)) text _ := (answers_signed text).andThen answers_ends
  have answers : Answers code (Rule.production .number).body text _ :=
    fun record => (grouped record).regroup
  change Answers code _ text ((readNumeral text).map Prod.snd)
  unfold readNumeral
  generalize readSigned text = signed at answers
  cases signed with
  | none => exact answers
  | some found =>
      obtain ⟨spelling, rest⟩ := found
      simp only [Option.map_some, Option.bind_eq_bind, Option.bind_some] at answers ⊢
      cases ends : beginsInName rest <;> simpa [ends] using answers

theorem answers_anything (c : Char) (rest : List Char) :
    Answers code .anything (c :: rest) (some rest) :=
  answers_character (fun _ => true) c rest

theorem answers_quoted_escaped (c : Char) (rest : List Char) :
    Answers code .quoted ('\\' :: c :: rest) (some rest) :=
  .left (.both (.sign rfl) (answers_anything c rest))

theorem answers_quoted_plain {c : Char} (notQuote : c ≠ '"') (notBackslash : c ≠ '\\')
    (rest : List Char) : Answers code .quoted (c :: rest) (some rest) := by
  have quote : Answers code (.sign "\"") (c :: rest) none :=
    .noSign fun _ spelled => notQuote (List.cons.inj spelled).1
  have backslash : Answers code (.sign "\\") (c :: rest) none :=
    .noSign fun _ spelled => notBackslash (List.cons.inj spelled).1
  exact .right backslash.noFirst ((quote.right backslash).absent.both (answers_anything c rest))

theorem answers_quoted_quote (rest : List Char) : Answers code .quoted ('"' :: rest) none := by
  have quote : Answers code (.sign "\"") ('"' :: rest) (some rest) := .sign rfl
  have backslash : Answers code (.sign "\\") ('"' :: rest) none := .noSign fun _ => by simp
  exact .right backslash.noFirst (.noFirst quote.left.present)

/-- No character is left for the backslash to take, or there is none at all. -/
theorem answers_quoted_end : Answers code .quoted [] none ∧ Answers code .quoted ['\\'] none := by
  have ends : Answers code .anything [] none := answers_character_nil _
  have none (text : List Char) (bare : ∀ rest, text ≠ '"' :: rest) :
      Answers code (.sign "\"") text none := .noSign bare
  have nothing : Answers code (.sign "\\") [] Option.none := .noSign fun _ => by simp
  have backslash : Answers code (.sign "\\") ['\\'] (some []) := .sign rfl
  constructor
  · exact .right nothing.noFirst (((none [] (by simp)).right nothing).absent.both ends)
  · exact .right (backslash.both ends)
      (.noFirst ((none _ (by simp)).right backslash).present)

/-- The repetition ends where the reader of interiors does. -/
theorem answers_interior (code text : List Char) : ∃ left,
    Answers code Rule.interior.body text (some left) ∧
      "\"".toList.isPrefixOf? left = (readInterior text).map Prod.snd := by
  suffices repeated : ∃ left, Answers code (.more .quoted) text (some left) ∧
      "\"".toList.isPrefixOf? left = (readInterior text).map Prod.snd by
    obtain ⟨left, answers, ends⟩ := repeated
    exact ⟨left, answers.many, ends⟩
  fun_induction readInterior text with
  | case1 => exact ⟨[], .last answers_quoted_end.1, rfl⟩
  | case2 rest => exact ⟨_, .last (answers_quoted_quote rest), rfl⟩
  | case3 => exact ⟨_, .last answers_quoted_end.2, rfl⟩
  | case4 c rest ih =>
      obtain ⟨left, answers, ends⟩ := ih
      refine ⟨left, .more (answers_quoted_escaped c rest) answers, ?_⟩
      rw [ends, Option.map_map]
      rfl
  | case5 c rest notQuote notLast notEscaped ih =>
      obtain ⟨left, answers, ends⟩ := ih
      have notBackslash : c ≠ '\\' := by
        rintro rfl
        cases rest with
        | nil => exact notLast rfl rfl
        | cons d rest => exact notEscaped d rest rfl rfl
      refine ⟨left, .more (answers_quoted_plain notQuote notBackslash rest) answers, ?_⟩
      rw [ends, Option.map_map]
      rfl

/-- The interior of a string constant is a rule of its own, and it is never missed. -/
theorem run_string (text : List Char) (record : Record) :
    Run code .joined (Rule.production .string).body text record
      ((string.read text).map Prod.snd) record := by
  change Run code .joined _ text record ((readString text).map Prod.snd) record
  by_cases quoted : ∃ inner, text = '"' :: inner
  · obtain ⟨inner, rfl⟩ := quoted
    obtain ⟨left, answers, ends⟩ := answers_interior code inner
    have closing : Run code .joined (.sign "\"") left record _ record := run_sign _ _ left record
    have same : (readString ('"' :: inner)).map Prod.snd = (readInterior inner).map Prod.snd := by
      rw [readString, Option.map_map]
      rfl
    rw [same, ← ends]
    exact .both (.sign rfl) (.sign rfl)
      (.both (.rule (answers record)) (.sign rfl) closing)
  · have refused : readString text = none := by
      unfold readString
      split
      next inner => exact absurd ⟨inner, rfl⟩ quoted
      next => rfl
    rw [refused]
    exact .noFirst (.noSign fun inner spelled => quoted ⟨inner, spelled⟩)

end Datalog.Grammar
