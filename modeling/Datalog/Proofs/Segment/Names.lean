import Datalog.Proofs.Grammar.Closure
import Datalog.Proofs.Segment.Meaning

/-!
# Names that stand in the text

What is left behind a phrase is a suffix of the text, and so is what is left behind a
segment.  So every name that a text declares stands somewhere in the text
(`Segment.name_infix_of_declared`).
-/

set_option autoImplicit false

namespace Datalog

namespace Grammar

open Phrase

variable {α β γ : Type}

/-! ## Phrases leave suffixes -/

/-- What is left behind the phrase is a suffix of the text. -/
def Trims (phrase : Phrase α) : Prop :=
  ∀ ⦃text rest : List Char⦄ ⦃a : α⦄, phrase.read text = some (a, rest) → rest <:+ text

theorem Trims.both (combine : α → β → γ) {first : Phrase α} {second : Unit → Phrase β}
    (trims : Trims first) (trims' : Trims (second ())) : Trims (both combine first second) := by
  intro text rest c read
  obtain ⟨a, middle, b, found, found', -⟩ := (read_both_iff _ _ _ _ _ _).mp read
  exact ((trims' found').trans (skip_suffix middle)).trans (trims found)

theorem Trims.map (f : α → β) {phrase : Phrase α} (trims : Trims phrase) :
    Trims (f <$> phrase) := by
  intro text rest b read
  obtain ⟨a, found, -⟩ := (read_map_iff _ _ _ _ _).mp read
  exact trims found

theorem Trims.orElse {first second : Phrase α} (trims : Trims first) (trims' : Trims second) :
    Trims (first <|> second) := by
  intro text rest a read
  rcases (read_orElse_iff _ _ _ _ _).mp read with found | ⟨-, found⟩
  · exact trims found
  · exact trims' found

theorem Trims.maybe {phrase : Phrase α} (trims : Trims phrase) : Trims (maybe phrase) := by
  intro text rest a? read
  rcases (read_maybe_iff _ _ _ _).mp read with ⟨a, found, -⟩ | ⟨-, -, rfl⟩
  · exact trims found
  · exact List.suffix_rfl

theorem Trims.readMany {phrase : Phrase α} (trims : Trims phrase) (limit : Nat)
    (text : List Char) : (readMany phrase limit text).2 <:+ text := by
  induction limit generalizing text with
  | zero => exact List.suffix_rfl
  | succ limit ih =>
      rw [Phrase.readMany]
      cases read : phrase.read (skip text) with
      | none => exact List.suffix_rfl
      | some found =>
          obtain ⟨a, rest⟩ := found
          exact ((ih rest).trans (trims read)).trans (skip_suffix text)

theorem Trims.many {phrase : Phrase α} (trims : Trims phrase) : Trims (many phrase) := by
  intro text rest as read
  have left := trims.readMany text.length text
  rwa [(read_many_iff _ _ _ _).mp read] at left

theorem trims_word (production : Production) (meaning : String → Option α) :
    Trims (terminal production (readWord meaning)) := by
  intro text rest a read
  obtain ⟨name, word, -⟩ := (readWord_eq_some_iff meaning text a rest).mp read
  exact word.spelled ▸ List.suffix_append _ _

theorem trims_token (spelling : String) : Trims (token spelling) := by
  intro text rest nothing read
  exact (read_token_iff _ _ _ _).mp read ▸ List.suffix_append _ _

theorem trims_string : Trims string := by
  intro text rest value read
  obtain ⟨interior, -, rfl, -⟩ := of_readString read
  exact ⟨'"' :: (interior ++ ['"']), by simp⟩

/-- **Every phrase of the grammar leaves a suffix.** -/
theorem closed_trims : Closed @Trims where
  sign _ := trims_token _
  word := trims_word
  identifier := fun text rest name read =>
    ((readName_eq_some_iff text name rest).mp read).spelled ▸ List.suffix_append _ _
  number := fun text rest numeral read =>
    ((readNumeral_eq_some_iff text numeral rest).mp read).1.spelled ▸ List.suffix_append _ _
  string := trims_string
  counter := trims_token "$"
  operator := fun text rest operator read =>
    ((readOperator_eq_some_iff text operator rest).mp read).spelled ▸ List.suffix_append _ _
  unapplied := fun _ _ _ read =>
    ((read_absent_iff _ _ _ _).mp read).2 ▸ List.suffix_rfl
  never := fun read => nomatch read
  named _ _ trims := trims
  map f _ trims := trims.map f
  both combine _ _ trims trims' := trims.both combine trims'
  orElse trims trims' := trims.orElse trims'
  maybe trims := trims.maybe
  many trims _ := trims.many
  defer trims := trims

theorem trims_declarationKeyword : Trims declarationKeyword := fun _ _ _ read =>
  ((read_declarationKeyword_iff _ _ _).mp read).1 ▸ List.suffix_append _ _

theorem trims_argument : Trims argument := fun text _ _ read =>
  closed_trims.holds_nested (text.length + 1) read

theorem trims_statement : Trims statement := by
  have head := closed_trims.holds_atom trims_argument
  have contents := closed_trims.holds_body trims_argument
  have clause : Trims clause :=
    closed_trims.seqLeft (closed_trims.seq (head.map _) contents.maybe) (trims_token ".")
  have declared := closed_trims.holds_declaration trims_declarationKeyword
  exact (declared.map _).orElse (clause.map _)

/-! ## Declared names -/

/-- A name that is listed stands in the text. -/
theorem Separated.name_infix {text rest : List Char} {names : List String}
    (listed : Separated Word text names rest) :
    ∀ name ∈ names, name.toList <:+: text := by
  induction listed with
  | single word =>
      intro name member
      obtain rfl := List.mem_singleton.mp member
      exact word.spelled ▸ (List.prefix_append _ _).isInfix
  | @more text stop comma next rest first names word before behind _ ih =>
      intro name member
      rcases List.mem_cons.mp member with rfl | member
      · exact word.spelled ▸ (List.prefix_append _ _).isInfix
      · have left : stop <:+ text := word.spelled ▸ List.suffix_append _ _
        have further := (behind.suffix.trans (List.suffix_cons ',' comma)).trans before.suffix
        exact (ih name member).trans (further.trans left).isInfix

/-- The names of a declaration stand in its text. -/
theorem DerivesDeclaration.name_infix {text rest : List Char} {tree : DeclarationTree}
    (derives : DerivesDeclaration text tree rest) : ∀ name ∈ tree.names, name.toList <:+: text := by
  have ofSignature {names : List String} {attributes : List Attribute} {stop : List Char}
      (signature : DerivesSignature text names attributes stop) :
      ∀ name ∈ names, name.toList <:+: text := by
    cases signature with
    | declared keyword ends front listed =>
        intro name member
        have behind := front.suffix.trans (keyword ▸ List.suffix_append _ _)
        exact (listed.name_infix name member).trans behind.isInfix
  cases derives with
  | unqualified signature => exact ofSignature signature
  | qualified signature => exact ofSignature signature

end Grammar

open Grammar

namespace Segment

/-- **What is left behind a segment is a suffix of the text.** -/
theorem next_suffix (text : List Char) : (next text).2 <:+ text := by
  cases read : nextStatement.read text with
  | none =>
      rw [next_of_refused read]
      exact Recovery.passCode_suffix false text
  | some found =>
      obtain ⟨stated, rest⟩ := found
      rw [next_of_read read]
      rw [read_nextStatement] at read
      exact (trims_statement read).trans (skip_suffix text)

/-- **What a text declares is named in the text.** -/
theorem name_infix_of_declared (text : List Char) {declared : Declaration}
    (member : some (.inl declared) ∈ meanings text) :
    ∀ name ∈ declared.names, name.toList <:+: text := by
  induction text using Segment.induction with
  | done text ends =>
      rw [meanings_of_skip_eq_nil ends] at member
      exact absurd member List.not_mem_nil
  | step text more ih =>
      rw [meanings_eq_cons more] at member
      rcases List.mem_cons.mp member with first | later
      · cases read : nextStatement.read text with
        | none =>
            rw [next_of_refused read] at first
            cases first
        | some found =>
            obtain ⟨stated, rest⟩ := found
            rw [next_of_read read] at first
            rw [read_nextStatement] at read
            obtain ⟨tree, stop, derives, -, rfl⟩ := statement_sound read
            intro name listed
            cases derives with
            | clause => cases first
            | declaration contents =>
                obtain rfl := Sum.inl.inj (Option.some.inj first)
                exact (contents.name_infix name listed).trans (skip_suffix text).isInfix
      · intro name listed
        exact (ih later name listed).trans (next_suffix text).isInfix

end Segment

end Datalog
