import Datalog.Proofs.Grammar.Starts

/-!
# Alternatives exclude each other

The first character, or the first word, of an argument tells which alternative was
taken (`DerivesArgument.announced_eq`), and what follows the first word tells an
argument from an atom and from a constant condition.
-/

set_option autoImplicit false

namespace Datalog.Grammar

/-! ## Arguments -/

/-- The production of the alternative that an argument tree takes. -/
def ArgumentTree.production : ArgumentTree → Production
  | .aggregate _ _ _ => .aggregate
  | .nil => .nil
  | .counter => .counter
  | .number _ => .number
  | .string _ => .string
  | .unnamed => .unnamed
  | .variable _ => .variable

/-- The production that the start of a text announces, if the text is an argument. -/
def announced (text : List Char) : Production :=
  match readName text with
  | some (name, _) =>
    if (AggregateKind.ofKeyword? name).isSome then .aggregate
    else if name = "nil" then .nil
    else if name = "_" then .unnamed
    else .variable
  | none => if text.head? = some '$' then .counter else if text.head? = some '"' then .string
    else .number

theorem ofKeyword?_eq_none {name : String} (unreserved : name ∉ reservedWords) :
    AggregateKind.ofKeyword? name = none := by
  simp only [AggregateKind.ofKeyword?, List.find?_eq_none, beq_iff_eq]
  rintro kind - rfl
  exact unreserved (by cases kind <;> decide)

theorem readName_eq_none {c : Char} {text : List Char} (other : startsName c = false) :
    readName (c :: text) = none := by
  simp [readName, other]

/-- A name starts with a letter or with an underscore. -/
theorem letter_of_startsName {c : Char} (starts : startsName c = true) :
    (65 ≤ c.toNat ∧ c.toNat ≤ 90 ∨ 97 ≤ c.toNat ∧ c.toNat ≤ 122) ∨ c = '_' := by
  delta startsName Char.isAlpha Char.isUpper Char.isLower at starts
  simpa [UInt32.le_iff_toNat_le] using starts

theorem startsName_eq_false_of_isDigit {c : Char} (digit : c.isDigit = true) :
    startsName c = false := by
  have range : 48 ≤ c.toNat ∧ c.toNat ≤ 57 := by
    simpa [Char.isDigit, UInt32.le_iff_toNat_le] using digit
  cases starts : startsName c with
  | false => rfl
  | true =>
      rcases letter_of_startsName starts with (_ | _) | rfl
      · omega
      · omega
      · exact absurd range (by decide)

theorem announced_of_word {text rest : List Char} {name : String} (word : Word text name rest) :
    announced text =
      if (AggregateKind.ofKeyword? name).isSome then .aggregate
      else if name = "nil" then .nil
      else if name = "_" then .unnamed
      else .variable := by
  rw [announced, (readName_eq_some_iff _ _ _).mpr word]

/-- **The start of an argument tells which alternative it takes.** -/
theorem DerivesArgument.announced_eq {text rest : List Char} {tree : ArgumentTree}
    (derives : DerivesArgument text tree rest) : announced text = tree.production := by
  cases derives with
  | untargeted word | targeted word =>
      rw [announced_of_word word, AggregateKind.ofKeyword?_keyword]
      rfl
  | nil word | unnamed word =>
      rw [announced_of_word word]
      rfl
  | free word unreserved named =>
      rw [announced_of_word word, ofKeyword?_eq_none unreserved, if_neg (by decide), if_neg,
        if_neg named]
      · rfl
      · rintro rfl
        exact unreserved (by decide)
  | counter =>
      rw [announced, readName_eq_none (by decide)]
      rfl
  | string =>
      rw [announced, readName_eq_none (by decide)]
      rfl
  | number digits =>
      obtain ⟨c, behind, rfl, digit | rfl⟩ := digits.starts
      · have notCounter : c ≠ '$' := by rintro rfl; exact absurd digit (by decide)
        have notQuote : c ≠ '"' := by rintro rfl; exact absurd digit (by decide)
        rw [announced, readName_eq_none (startsName_eq_false_of_isDigit digit)]
        simp [notCounter, notQuote, ArgumentTree.production]
      · rw [announced, readName_eq_none (by decide)]
        simp [ArgumentTree.production]

theorem keyword_injective {kind kind' : AggregateKind} (same : kind.keyword = kind'.keyword) :
    kind = kind' := by
  have found := AggregateKind.ofKeyword?_keyword kind
  rw [same, AggregateKind.ofKeyword?_keyword] at found
  exact (Option.some.inj found).symm

/-! ## Arguments and other phrases -/

theorem truthWord_injective {value value' : Bool} (same : truthWord value = truthWord value') :
    value = value' := by
  revert value value'
  decide

theorem keyword_ne_truthWord (kind : AggregateKind) (value : Bool) :
    kind.keyword ≠ truthWord value := by
  cases kind <;> cases value <;> decide

/-- No argument is a word for a constant condition. -/
theorem DerivesArgument.not_truth {text rest mark : List Char} {tree : ArgumentTree} {value : Bool}
    (derives : DerivesArgument text tree rest) (word : Word text (truthWord value) mark) :
    False := by
  cases derives with
  | untargeted word' | targeted word' => exact keyword_ne_truthWord _ _ (word'.unique word).1
  | nil word' | unnamed word' =>
      have same := (word'.unique word).1
      cases value <;> exact absurd same (by decide)
  | free word' unreserved =>
      obtain ⟨rfl, -⟩ := word'.unique word
      cases value <;> exact unreserved (by decide)
  | counter | string => exact word.head_ne (by decide)
  | number digits =>
      obtain ⟨c, behind, rfl, digit | rfl⟩ := digits.starts
      · exact word.head_ne (startsName_eq_false_of_isDigit digit)
      · exact word.head_ne (by decide)

/-- The first word of a comparison is not applied to anything. -/
theorem DerivesArgument.not_applied {text stop sign inner mark : List Char} {tree : ArgumentTree}
    {operator : Comparison} {name : String} (derives : DerivesArgument text tree stop)
    (before : Layout stop sign) (spelled : OperatorText sign operator inner)
    (word : Word text name mark) : ¬ Opens mark := by
  -- behind a word that is an argument comes the operator
  have lone {name' : String} (word' : Word text name' stop) : ¬ Opens mark := by
    obtain ⟨-, rfl⟩ := word'.unique word
    obtain ⟨c, behind, rfl, isOperator⟩ := spelled.starts
    simp only [List.mem_cons, List.not_mem_nil, or_false] at isOperator
    rcases isOperator with rfl | rfl | rfl | rfl <;>
      exact not_opens before (by decide) (by decide)
  cases derives with
  | untargeted word' colon =>
      obtain ⟨-, rfl⟩ := word'.unique word
      exact not_opens colon (by decide) (by decide)
  | targeted word' front reduced =>
      obtain ⟨-, rfl⟩ := word'.unique word
      rintro ⟨inner, opens⟩
      cases front.unique opens reduced.solid ⟨'(', inner, rfl, by decide⟩
      exact reduced.head_ne (by decide)
  | nil word' | unnamed word' | free word' => exact lone word'
  | counter | string => exact (word.head_ne (by decide)).elim
  | number digits =>
      obtain ⟨c, behind, rfl, digit | rfl⟩ := digits.starts
      · exact (word.head_ne (startsName_eq_false_of_isDigit digit)).elim
      · exact (word.head_ne (by decide)).elim

/-- A target does not start with the colon that comes behind it. -/
theorem not_targeted {mark inner start stop : List Char} {tree : ArgumentTree}
    (colon : Layout mark (':' :: inner)) (front : Layout mark start)
    (target : DerivesArgument start tree stop) : False := by
  cases front.unique colon target.solid (solid_colon inner)
  exact target.head_ne (by decide)

end Datalog.Grammar
