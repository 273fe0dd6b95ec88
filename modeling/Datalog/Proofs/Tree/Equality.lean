import Datalog.Program.Equality
import Datalog.Proofs.Tree.Constants

/-!
# Equality is equality of contents

Clauses are compared place by place, and symbols of one table by their numbers.
Wherever the symbols of two clauses are equal exactly if their texts are, as they
are for symbols of different tables, the clauses are equal exactly if they have
the same content (`Clause.beq_iff_content`).
-/

set_option autoImplicit false

namespace Datalog

/-! ## Symbols -/

/-- The symbols among some constants are equal to those among others exactly if
their texts are. -/
def Agree (constants constants' : List (Int64 ⊕ Symbol)) : Prop :=
  ∀ symbol symbol', .inr symbol ∈ constants → .inr symbol' ∈ constants' →
    ((symbol == symbol') = true ↔ symbol.text = symbol'.text)

/-- Symbols of one table are compared by their numbers. -/
theorem Symbol.beq_iff_of_table_eq {symbol symbol' : Symbol}
    (together : symbol.table = symbol'.table) :
    (symbol == symbol') = true ↔ symbol.id = symbol'.id := by
  change (if symbol.table = symbol'.table then symbol.id == symbol'.id
    else symbol.text == symbol'.text) = true ↔ _
  rw [if_pos together, beq_iff_eq]

/-- Symbols of different tables are compared by their texts. -/
theorem Symbol.beq_iff_of_table_ne {symbol symbol' : Symbol}
    (apart : symbol.table ≠ symbol'.table) :
    (symbol == symbol') = true ↔ symbol.text = symbol'.text := by
  change (if symbol.table = symbol'.table then symbol.id == symbol'.id
    else symbol.text == symbol'.text) = true ↔ _
  rw [if_neg apart, beq_iff_eq]

theorem Agree.split {front rest front' rest' : List (Int64 ⊕ Symbol)}
    (agree : Agree (front ++ rest) (front' ++ rest')) : Agree front front' ∧ Agree rest rest' := by
  constructor
  · intro symbol symbol' member member'
    exact agree symbol symbol' (List.mem_append_left _ member) (List.mem_append_left _ member')
  · intro symbol symbol' member member'
    exact agree symbol symbol' (List.mem_append_right _ member) (List.mem_append_right _ member')

/-! ## Clauses -/

mutual
theorem Argument.beq_iff : ∀ left right : Argument Int64 Symbol,
    Agree left.constants right.constants →
      (left.beq right = true ↔ left.map id Symbol.text = right.map id Symbol.text)
  | .nil, right, _ => by
      rcases right with _ | _ | _ | _ | _ | _ | ⟨_, _ | _, _⟩ <;> simp [Argument.beq, Argument.map]
  | .number value, right, _ => by
      rcases right with _ | _ | _ | _ | _ | _ | ⟨_, _ | _, _⟩ <;> simp [Argument.beq, Argument.map]
  | .string value, right, agree => by
      rcases right with _ | _ | value' | _ | _ | _ | ⟨_, _ | _, _⟩
      case string =>
        rw [Argument.beq, Argument.map, Argument.map, Argument.string.injEq]
        exact agree value value' List.mem_cons_self List.mem_cons_self
      all_goals simp [Argument.beq, Argument.map]
  | .variable name, right, _ => by
      rcases right with _ | _ | _ | _ | _ | _ | ⟨_, _ | _, _⟩ <;> simp [Argument.beq, Argument.map]
  | .unnamed, right, _ => by
      rcases right with _ | _ | _ | _ | _ | _ | ⟨_, _ | _, _⟩ <;> simp [Argument.beq, Argument.map]
  | .counter, right, _ => by
      rcases right with _ | _ | _ | _ | _ | _ | ⟨_, _ | _, _⟩ <;> simp [Argument.beq, Argument.map]
  | .aggregate kind none body, right, agree => by
      rcases right with _ | _ | _ | _ | _ | _ | ⟨kind', _ | _, body'⟩
      case aggregate.none =>
        rw [Argument.beq, Argument.map, Argument.map, Bool.and_eq_true, beq_iff_eq,
          Literal.beqAll_iff body body' agree]
        simp
      all_goals simp [Argument.beq, Argument.map]
  | .aggregate kind (some target) body, right, agree => by
      rcases right with _ | _ | _ | _ | _ | _ | ⟨kind', _ | target', body'⟩
      case aggregate.some =>
        obtain ⟨first, second⟩ := agree.split
        rw [Argument.beq, Argument.map, Argument.map, Bool.and_eq_true, Bool.and_eq_true,
          beq_iff_eq, Argument.beq_iff target target' first, Literal.beqAll_iff body body' second]
        simp [and_assoc]
      all_goals simp [Argument.beq, Argument.map]

theorem Argument.beqAll_iff : ∀ left right : List (Argument Int64 Symbol),
    Agree (Argument.constantsAll left) (Argument.constantsAll right) →
      (Argument.beqAll left right = true ↔
        Argument.mapAll id Symbol.text left = Argument.mapAll id Symbol.text right)
  | [], right, _ => by cases right <;> simp [Argument.beqAll, Argument.mapAll]
  | argument :: rest, [], _ => by simp [Argument.beqAll, Argument.mapAll]
  | argument :: rest, argument' :: rest', agree => by
      obtain ⟨first, second⟩ := agree.split
      rw [Argument.beqAll, Argument.mapAll, Argument.mapAll, Bool.and_eq_true, List.cons.injEq,
        Argument.beq_iff argument argument' first, Argument.beqAll_iff rest rest' second]

theorem Literal.beq_iff : ∀ left right : Literal Int64 Symbol,
    Agree left.constants right.constants →
      (left.beq right = true ↔ left.map id Symbol.text = right.map id Symbol.text)
  | .positive name arguments, right, agree => by
      cases right with
      | positive name' arguments' =>
          rw [Literal.beq, Literal.map, Literal.map, Bool.and_eq_true, beq_iff_eq,
            Argument.beqAll_iff arguments arguments' agree, Literal.positive.injEq]
      | _ => simp [Literal.beq, Literal.map]
  | .negative name arguments, right, agree => by
      cases right with
      | negative name' arguments' =>
          rw [Literal.beq, Literal.map, Literal.map, Bool.and_eq_true, beq_iff_eq,
            Argument.beqAll_iff arguments arguments' agree, Literal.negative.injEq]
      | _ => simp [Literal.beq, Literal.map]
  | .comparison operator first second, right, agree => by
      cases right with
      | comparison operator' first' second' =>
          obtain ⟨before, behind⟩ := agree.split
          rw [Literal.beq, Literal.map, Literal.map, Bool.and_eq_true, Bool.and_eq_true, beq_iff_eq,
            Argument.beq_iff first first' before, Argument.beq_iff second second' behind,
            Literal.comparison.injEq, and_assoc]
      | _ => simp [Literal.beq, Literal.map]
  | .truth value, right, _ => by cases right <;> simp [Literal.beq, Literal.map]

theorem Literal.beqAll_iff : ∀ left right : List (Literal Int64 Symbol),
    Agree (Literal.constantsAll left) (Literal.constantsAll right) →
      (Literal.beqAll left right = true ↔
        Literal.mapAll id Symbol.text left = Literal.mapAll id Symbol.text right)
  | [], right, _ => by cases right <;> simp [Literal.beqAll, Literal.mapAll]
  | literal :: rest, [], _ => by simp [Literal.beqAll, Literal.mapAll]
  | literal :: rest, literal' :: rest', agree => by
      obtain ⟨first, second⟩ := agree.split
      rw [Literal.beqAll, Literal.mapAll, Literal.mapAll, Bool.and_eq_true, List.cons.injEq,
        Literal.beq_iff literal literal' first, Literal.beqAll_iff rest rest' second]
end

/-- **Clauses are equal exactly if they have the same content**, wherever their
symbols are equal exactly if their texts are. -/
theorem Clause.beq_iff_content {left right : InternedClause}
    (agree : Agree left.constants right.constants) :
    (left == right) = true ↔ left.content = right.content := by
  obtain ⟨head, body⟩ := agree.split
  change ((left.head.name == right.head.name &&
      Argument.beqAll left.head.arguments right.head.arguments) &&
    Literal.beqAll left.body right.body) = true ↔ _
  rw [Bool.and_eq_true, Bool.and_eq_true, beq_iff_eq, Argument.beqAll_iff _ _ head,
    Literal.beqAll_iff _ _ body, Clause.content, Clause.content, Clause.map, Clause.map, Atom.map,
    Atom.map, Clause.mk.injEq, Atom.mk.injEq]

/-! ## Programs -/

theorem clauses_beq_iff_content {left right : List InternedClause}
    (agree : ∀ clause ∈ left, ∀ clause' ∈ right, Agree clause.constants clause'.constants) :
    (left == right) = true ↔ left.map Clause.content = right.map Clause.content := by
  induction left generalizing right with
  | nil => cases right <;> simp
  | cons clause rest ih =>
      cases right with
      | nil => simp
      | cons clause' rest' =>
          have others := ih fun other member other' member' =>
            agree other (List.mem_cons_of_mem _ member) other' (List.mem_cons_of_mem _ member')
          have first := Clause.beq_iff_content
            (agree clause List.mem_cons_self clause' List.mem_cons_self)
          rw [List.cons_beq_cons, Bool.and_eq_true, first, others, List.map_cons, List.map_cons,
            List.cons.injEq]

/-- The entry that is found under a key is the one that has it. -/
theorem find?_key_eq_some_iff {α κ : Type} [DecidableEq κ] {entries : List α} {key : α → κ}
    (distinct : (entries.map key).Nodup) {sought : κ} {entry : α} :
    (entries.find? fun other => key other == sought) = some entry ↔
      entry ∈ entries ∧ key entry = sought := by
  constructor
  · intro found
    have same := List.find?_some found
    exact ⟨List.mem_of_find?_eq_some found, by simpa using same⟩
  · rintro ⟨member, rfl⟩
    obtain ⟨front, rest, rfl⟩ := List.append_of_mem member
    rw [List.map_append, List.map_cons, List.nodup_append] at distinct
    refine List.find?_eq_some_iff_append.mpr ⟨beq_self_eq_true _, front, rest, rfl, ?_⟩
    intro other before
    have apart : key other ≠ key entry :=
      distinct.2.2 _ (List.mem_map_of_mem before) _ List.mem_cons_self
    simpa using apart

/-- A relation of a program is found under its name. -/
theorem Program.relation?_eq_some_of_mem {program : Program} {relation : Relation}
    (member : relation ∈ program.relations) : program.relation? relation.name = some relation :=
  (find?_key_eq_some_iff program.distinct).mpr ⟨member, rfl⟩

/-- Programs with the same relations and the same contents are equal. -/
theorem Program.beq_of_same {left right : Program} (relations : left.relations = right.relations)
    (contents : left.clauseList.map Clause.content = right.clauseList.map Clause.content)
    (agree : ∀ clause ∈ left.clauseList, ∀ clause' ∈ right.clauseList,
      Agree clause.constants clause'.constants) : (left == right) = true := by
  change (left.relations.length == right.relations.length &&
    (left.relations.all fun relation => right.relation? relation.name == some relation) &&
    left.clauseList == right.clauseList) = true
  rw [Bool.and_eq_true, Bool.and_eq_true, relations, beq_iff_eq, List.all_eq_true,
    clauses_beq_iff_content agree]
  refine ⟨⟨rfl, fun relation member => ?_⟩, contents⟩
  rw [Program.relation?_eq_some_of_mem member, beq_iff_eq]

end Datalog
