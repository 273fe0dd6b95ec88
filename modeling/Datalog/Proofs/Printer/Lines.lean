import Datalog.Proofs.Printer.Program
import Datalog.Proofs.Text.Escaping
import Mathlib.Data.List.SplitBy

/-!
# Lines of a program

No line feed comes into the text of a clause or of a declaration: names have none, and
between quotes it is written with a backslash (`Clause.feed_not_mem_text`,
`Declaration.feed_not_mem_text`).

The relations of a program are written in groups.  A group goes on as long as the
relations have the same attributes and the same representation, and no relation is left
out, moved or written twice (`Declaration.groups_ofRelations`).  This leaves one way to
group them, the one that is found from left to right (`Declaration.Groups.splitBy_eq`).
-/

set_option autoImplicit false

namespace Datalog

open Grammar (isName continuesName_of_mem)

/-! ## Texts that stay on one line -/

theorem not_mem_separate {c : Char} {separator : List Char} (notBetween : c ∉ separator)
    {pieces : List (List Char)} (notInside : ∀ piece ∈ pieces, c ∉ piece) :
    c ∉ separate separator pieces := by
  induction pieces with
  | nil => exact List.not_mem_nil
  | cons piece rest ih =>
      have first := notInside piece List.mem_cons_self
      have others := ih fun other member => notInside other (List.mem_cons_of_mem _ member)
      cases rest with
      | nil => rwa [separate, List.intercalate_singleton]
      | cons next rest =>
          rw [separate_cons_cons, List.mem_append, List.mem_append, not_or, not_or]
          exact ⟨⟨first, notBetween⟩, others⟩

theorem feed_not_mem_name {name : String} (named : isName name = true) : '\n' ∉ name.toList :=
  fun member => absurd (continuesName_of_mem named member) (by decide)

theorem feed_not_mem_decimal (value : Int) : '\n' ∉ Text.decimal value := by
  have digits (n : Nat) : '\n' ∉ Nat.toDigits 10 n :=
    fun member => absurd (Text.isDigit_of_mem_toDigits member) (by decide)
  cases value with
  | ofNat n => exact digits n
  | negSucc n => simpa [Text.decimal] using digits (n + 1)

theorem feed_not_mem_quote (text : List Char) : '\n' ∉ Text.quote text := by
  have inside : '\n' ∉ Text.escape text := fun member => (Text.ne_of_mem_escape member).1 rfl
  simpa [Text.quote] using inside

theorem feed_not_mem_applied {name : String} (named : isName name = true)
    {texts : List (List Char)} (arguments : ∀ text ∈ texts, '\n' ∉ text) :
    '\n' ∉ name.toList ++ '(' :: separate [','] texts ++ [')'] := by
  have comma : '\n' ∉ [','] := by decide
  have inside := not_mem_separate comma arguments
  simpa using ⟨feed_not_mem_name named, inside⟩

theorem feed_not_mem_enclose (body : List (Literal Int64 String)) {texts : List (List Char)}
    (literals : ∀ text ∈ texts, '\n' ∉ text) : '\n' ∉ Literal.enclose body texts := by
  have comma : '\n' ∉ [',', ' '] := by decide
  have inside := not_mem_separate comma literals
  unfold Literal.enclose
  split
  · decide
  · exact inside
  · simpa using inside

mutual
/-- The text of an argument stays on one line. -/
theorem Argument.feed_not_mem_text : ∀ argument : Argument Int64 String,
    argument.wellFormed = true → '\n' ∉ argument.text
  | .nil, _ | .unnamed, _ | .counter, _ => by decide
  | .number value, _ => feed_not_mem_decimal value.toInt
  | .string value, _ => feed_not_mem_quote value.toList
  | .variable name, wellFormed => by
      simp only [Argument.wellFormed, isVariableName, Bool.and_eq_true] at wellFormed
      exact feed_not_mem_name wellFormed.1.1
  | .aggregate kind none body, wellFormed => by
      have inside := feed_not_mem_enclose body (Literal.feed_not_mem_texts body wellFormed)
      have keyword : '\n' ∉ kind.keyword.toList := by cases kind <;> decide
      simpa [Argument.text] using ⟨keyword, inside⟩
  | .aggregate kind (some target) body, wellFormed => by
      rw [Argument.wellFormed, Bool.and_eq_true] at wellFormed
      have reduced := Argument.feed_not_mem_text target wellFormed.1
      have inside := feed_not_mem_enclose body (Literal.feed_not_mem_texts body wellFormed.2)
      have keyword : '\n' ∉ kind.keyword.toList := by cases kind <;> decide
      simpa [Argument.text] using ⟨keyword, reduced, inside⟩

theorem Argument.feed_not_mem_texts : ∀ arguments : List (Argument Int64 String),
    Argument.wellFormedAll arguments = true →
      ∀ text ∈ Argument.texts arguments, '\n' ∉ text
  | [], _, _, member => by cases member
  | argument :: rest, wellFormed, text, member => by
      rw [Argument.wellFormedAll, Bool.and_eq_true] at wellFormed
      rcases List.mem_cons.mp member with rfl | member
      · exact Argument.feed_not_mem_text argument wellFormed.1
      · exact Argument.feed_not_mem_texts rest wellFormed.2 text member

/-- The text of a literal stays on one line. -/
theorem Literal.feed_not_mem_text : ∀ literal : Literal Int64 String,
    literal.wellFormed = true → '\n' ∉ literal.text
  | .positive name arguments, wellFormed => by
      rw [Literal.wellFormed, Bool.and_eq_true] at wellFormed
      exact feed_not_mem_applied wellFormed.1 (Argument.feed_not_mem_texts arguments wellFormed.2)
  | .negative name arguments, wellFormed => by
      rw [Literal.wellFormed, Bool.and_eq_true] at wellFormed
      have applied :=
        feed_not_mem_applied wellFormed.1 (Argument.feed_not_mem_texts arguments wellFormed.2)
      rw [Literal.text, List.cons_append, List.cons_append, List.mem_cons, not_or]
      exact ⟨by decide, applied⟩
  | .comparison operator left right, wellFormed => by
      rw [Literal.wellFormed, Bool.and_eq_true] at wellFormed
      have first := Argument.feed_not_mem_text left wellFormed.1
      have second := Argument.feed_not_mem_text right wellFormed.2
      have sign : '\n' ∉ operator.operator.toList := by cases operator <;> decide
      simpa [Literal.text] using ⟨first, sign, second⟩
  | .truth value, _ => by cases value <;> decide

theorem Literal.feed_not_mem_texts : ∀ body : List (Literal Int64 String),
    Literal.wellFormedAll body = true → ∀ text ∈ Literal.texts body, '\n' ∉ text
  | [], _, _, member => by cases member
  | literal :: rest, wellFormed, text, member => by
      rw [Literal.wellFormedAll, Bool.and_eq_true] at wellFormed
      rcases List.mem_cons.mp member with rfl | member
      · exact Literal.feed_not_mem_text literal wellFormed.1
      · exact Literal.feed_not_mem_texts rest wellFormed.2 text member
end

/-- **The text of a clause stays on one line.** -/
theorem Clause.feed_not_mem_text {clause : Clause Int64 String}
    (wellFormed : clause.wellFormed = true) : '\n' ∉ clause.text := by
  rw [Clause.wellFormed, Atom.wellFormed, Bool.and_eq_true, Bool.and_eq_true] at wellFormed
  have head : '\n' ∉ clause.head.text :=
    feed_not_mem_applied wellFormed.1.1
      (Argument.feed_not_mem_texts clause.head.arguments wellFormed.1.2)
  have comma : '\n' ∉ [',', ' '] := by decide
  have body := not_mem_separate comma (Literal.feed_not_mem_texts clause.body wellFormed.2)
  unfold Clause.text
  split
  · simpa using head
  · simpa using ⟨head, body⟩

/-- **The text of a declaration stays on one line.** -/
theorem Declaration.feed_not_mem_text {declaration : Declaration}
    (wellFormed : declaration.WellFormed) : '\n' ∉ declaration.text := by
  have names : '\n' ∉ separate [','] (declaration.names.map String.toList) := by
    refine not_mem_separate (by decide) fun piece member => ?_
    obtain ⟨name, listed, rfl⟩ := List.mem_map.mp member
    exact feed_not_mem_name (wellFormed.names name listed)
  have columns : '\n' ∉ separate [','] (declaration.attributes.map Attribute.text) := by
    refine not_mem_separate (by decide) fun piece member => ?_
    obtain ⟨column, listed, rfl⟩ := List.mem_map.mp member
    have named := wellFormed.attributes column listed
    rw [Attribute.wellFormed, Bool.and_eq_true] at named
    simpa [Attribute.text] using ⟨feed_not_mem_name named.1, feed_not_mem_name named.2⟩
  have qualifier : '\n' ∉ declaration.qualifierText := by
    unfold Declaration.qualifierText
    cases declaration.representation <;> decide
  have keyword : '\n' ∉ ".decl ".toList := by decide
  rw [Declaration.text_eq]
  delta Declaration.signatureText
  simp only [List.mem_append, List.mem_cons, not_or]
  exact ⟨⟨⟨⟨keyword, names⟩, by decide, columns⟩, by decide, List.not_mem_nil⟩, qualifier⟩

/-! ## Runs of relations -/

/-- Whether two relations have the same attributes and the same representation. -/
def Relation.alike (left right : Relation) : Bool :=
  left.attributes == right.attributes && left.representation == right.representation

/-- Declarations that declare some relations in order, each of them one at least, and
never one that could be declared along with those in front of it. -/
structure Declaration.Groups (declarations : List Declaration) (relations : List Relation) :
    Prop where
  partition : declarations.flatMap Declaration.relations = relations
  some : ∀ declaration ∈ declarations, declaration.names ≠ []
  maximal : declarations.IsChain fun declaration next =>
    ¬ (declaration.attributes = next.attributes ∧
      declaration.representation = next.representation)

/-- **Neighbouring declarations differ in attributes or representation.** -/
theorem Declaration.maximal_ofRelations (relations : List Relation) :
    (ofRelations relations).IsChain fun declaration next =>
      ¬ (declaration.attributes = next.attributes ∧
        declaration.representation = next.representation) := by
  induction relations with
  | nil => exact .nil
  | cons relation rest ih =>
      unfold ofRelations
      split
      next declaration others written =>
        rw [written, List.isChain_cons] at ih
        split
        next => exact List.isChain_cons.mpr ih
        next apart =>
          refine List.isChain_cons.mpr ⟨fun next head => ?_, List.isChain_cons.mpr ih⟩
          cases head
          rintro ⟨attributes, representation⟩
          exact apart (by simpa [fits] using And.intro attributes representation)
      next => exact .singleton _

theorem Declaration.groups_ofRelations (relations : List Relation) :
    Groups (ofRelations relations) relations where
  partition := flatMap_relations_ofRelations relations
  some := names_ne_nil_of_mem_ofRelations relations
  maximal := maximal_ofRelations relations

/-- All relations of a declaration are alike. -/
theorem Declaration.alike_of_mem_relations {declaration : Declaration} {relation : Relation}
    (member : relation ∈ declaration.relations) :
    relation.attributes = declaration.attributes ∧
      relation.representation = declaration.representation := by
  obtain ⟨name, -, rfl⟩ := List.mem_map.mp member
  exact ⟨rfl, rfl⟩

/-- **Only one way to group relations is left.**  It is found by going through them and
comparing each with the last one of the group that is open. -/
theorem Declaration.Groups.splitBy_eq {declarations : List Declaration} {relations : List Relation}
    (groups : Groups declarations relations) :
    relations.splitBy Relation.alike = declarations.map Declaration.relations := by
  have proper : ∀ declaration ∈ declarations, declaration.relations ≠ [] := by
    intro declaration member
    simpa [Declaration.relations] using groups.some declaration member
  refine List.splitBy_eq_iff.mpr ⟨?_, ?_, ?_, ?_⟩
  · rw [← groups.partition, List.flatMap_def]
  · intro listed
    obtain ⟨declaration, member, empty⟩ := List.mem_map.mp listed
    exact proper declaration member empty
  · intro run listed
    obtain ⟨declaration, -, rfl⟩ := List.mem_map.mp listed
    refine List.Pairwise.isChain (List.pairwise_iff_forall_sublist.mpr ?_)
    intro left right both
    have first := alike_of_mem_relations (both.subset List.mem_cons_self)
    have second := alike_of_mem_relations (both.subset (List.mem_cons_of_mem _ List.mem_cons_self))
    simp [Relation.alike, first, second]
  · rw [List.isChain_map]
    refine groups.maximal.imp_of_mem_imp fun declaration next member member' apart => ?_
    refine ⟨proper declaration member, proper next member', ?_⟩
    have last := alike_of_mem_relations (List.getLast_mem (proper declaration member))
    have first := alike_of_mem_relations (List.head_mem (proper next member'))
    rw [Relation.alike, last.1, last.2, first.1, first.2, Bool.eq_false_iff]
    simpa using apart

end Datalog
