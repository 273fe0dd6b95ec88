import Datalog.Proofs.TranslationUnit.Tally
import Mathlib.Data.List.Induction

/-!
# Listed names

A name may be listed many times, in one declaration or in several.  The relations
that are entered bear the listed names in the order of first listing
(`Relation.map_name_foldl_enter`), and a name stands for what the first declaration
says that lists it (`find?_flatMap_relations`).  So a declaration adds its new names,
each once, and the errors and warnings about it are counted by its names alone
(`Tally.declare_eq`).
-/

set_option autoImplicit false

namespace Datalog

open Grammar

/-! ## Relations that are entered -/

namespace Relation

/-- The relations that are entered bear the listed names, each where it stands first. -/
theorem map_name_foldl_enter (listed : List Relation) :
    (listed.foldl enter []).map name = (listed.map name).eraseDups := by
  induction listed using List.reverseRecOn with
  | nil => rfl
  | append_singleton listed relation ih =>
      have known : relation.name ∈ (listed.foldl enter []).map name ↔
          relation.name ∈ listed.map name := by
        rw [ih, List.mem_eraseDups]
      rw [List.foldl_append, List.foldl_cons, List.foldl_nil, List.map_append,
        List.eraseDups_append, enter, if_congr known rfl rfl, List.map_singleton, List.removeAll]
      split
      next present =>
        rw [ih, List.filter_cons_of_neg (by simpa using present)]
        exact (List.append_nil _).symm
      next absent =>
        rw [List.map_append, ih, List.filter_cons_of_pos (by simpa using absent)]
        rfl

/-- A name stands for the first relation of that name. -/
theorem find?_foldl_enter (base listed : List Relation) (wanted : String) :
    (listed.foldl enter base).find? (fun relation => relation.name == wanted) =
      (base ++ listed).find? fun relation => relation.name == wanted := by
  induction listed generalizing base with
  | nil => rw [List.foldl_nil, List.append_nil]
  | cons relation listed ih =>
      rw [List.foldl_cons, ih, enter]
      split
      next present =>
        rw [List.find?_append, List.find?_append, List.find?_cons]
        by_cases same : relation.name = wanted
        · obtain ⟨earlier, member, named⟩ := List.mem_map.mp present
          have found : (base.find? fun relation => relation.name == wanted).isSome = true :=
            List.find?_isSome.mpr ⟨earlier, member, by simp [named, same]⟩
          obtain ⟨first, known⟩ := Option.isSome_iff_exists.mp found
          rw [known, Option.some_or, Option.some_or]
        · rw [beq_false_of_ne same]
      next => rw [List.append_assoc, List.singleton_append]

end Relation

/-! ## What declarations list -/

/-- The names of a list that stand in it again, or in front of it. -/
def listedAgain : List String → List String → List String
  | _, [] => []
  | listed, name :: rest =>
    if name ∈ listed then name :: listedAgain listed rest else listedAgain (name :: listed) rest

/-- Each of some relations is entered, or its name is listed again. -/
theorem length_listedAgain {listed : List String} {seen : List Relation}
    (same : ∀ name, name ∈ listed ↔ name ∈ seen.map Relation.name) (relations : List Relation) :
    (relations.foldl Relation.enter seen).length +
        (listedAgain listed (relations.map Relation.name)).length =
      seen.length + relations.length := by
  induction relations generalizing listed seen with
  | nil => rfl
  | cons relation rest ih =>
      rw [List.foldl_cons, List.map_cons, listedAgain, Relation.enter,
        if_congr (same relation.name).symm rfl rfl, List.length_cons]
      split
      next again =>
        have further := ih same
        rw [List.length_cons]
        omega
      next new =>
        have further := @ih (relation.name :: listed) (seen ++ [relation])
          (by simp [same, or_comm])
        rw [List.length_append, List.length_singleton] at further
        omega

namespace Declaration

/-- The names that a declaration lists although it has listed them before. -/
def repeated (declared : Declaration) : List String := listedAgain [] declared.names

/-- The relation that a declaration declares under one of its names. -/
def relation (declared : Declaration) (name : String) : Relation :=
  ⟨name, declared.attributes, declared.representation⟩

/-- The names that a declaration lists, without those that are known already. -/
def newNames (known : List String) (declared : Declaration) : List String :=
  declared.names.eraseDups.filter fun name => !decide (name ∈ known)

/-- The names that a declaration lists although they are known already. -/
def redeclared (known : List String) (declared : Declaration) : List String :=
  declared.names.eraseDups.filter fun name => decide (name ∈ known)

theorem relations_eq_map (declared : Declaration) :
    declared.relations = declared.names.map declared.relation := rfl

/-- Of a declaration alone each name is entered once. -/
theorem foldl_enter_relations (declared : Declaration) :
    declared.relations.foldl Relation.enter [] =
      declared.names.eraseDups.map declared.relation := by
  have entered : ∀ relation ∈ declared.relations.foldl Relation.enter [],
      (declared.relation ∘ Relation.name) relation = id relation := by
    intro relation member
    rcases Relation.mem_of_mem_foldl_enter member with none | member
    · cases none
    · obtain ⟨name, -, rfl⟩ := List.mem_map.mp member
      rfl
  have names := Relation.map_name_foldl_enter declared.relations
  rw [names_relations] at names
  rw [← names, List.map_map, List.map_congr_left entered, List.map_id]

/-- Behind other relations, a declaration enters its new names. -/
theorem foldl_enter_relations_of_known (held : List Relation) (declared : Declaration) :
    declared.relations.foldl Relation.enter held =
      held ++ (declared.newNames (held.map Relation.name)).map declared.relation := by
  rw [Relation.foldl_enter_eq, foldl_enter_relations, List.filter_map]
  rfl

/-- Of the names of a declaration, those count that are known. -/
theorem countP_foldl_enter_relations (held : List Relation) (declared : Declaration) :
    (declared.relations.foldl Relation.enter []).countP (Relation.namedIn held) =
      (declared.redeclared (held.map Relation.name)).length := by
  rw [foldl_enter_relations, List.countP_map, List.countP_eq_length_filter]
  rfl

/-- Under a listed name a declaration declares one relation. -/
theorem find?_relations (declared : Declaration) (wanted : String) :
    declared.relations.find? (fun relation => relation.name == wanted) =
      if wanted ∈ declared.names then some (declared.relation wanted) else none := by
  rw [relations_eq_map, List.find?_map]
  split
  next listed =>
    have isSome : (declared.names.find? fun name => name == wanted).isSome = true :=
      List.find?_isSome.mpr ⟨wanted, listed, beq_self_eq_true wanted⟩
    obtain ⟨name, found⟩ := Option.isSome_iff_exists.mp isSome
    have same := List.find?_some found
    obtain rfl := eq_of_beq same
    exact congrArg (Option.map declared.relation) found
  next absent =>
    rw [Option.map_eq_none_iff, List.find?_eq_none]
    intro name listed same
    exact absent (eq_of_beq same ▸ listed)

end Declaration

/-! ## What statements list -/

/-- The declaration that a statement is, if it is one. -/
def Grammar.Statement.declaration? : Statement → Option Declaration
  | .declaration declared => some declared
  | .clause _ => none

/-- The declarations among statements. -/
def declarations (statements : List Statement) : List Declaration :=
  statements.filterMap Statement.declaration?

@[simp] theorem declarations_declaration (declared : Declaration) (rest : List Statement) :
    declarations (.declaration declared :: rest) = declared :: declarations rest := rfl

@[simp] theorem declarations_clause (spelled : SpelledClause) (rest : List Statement) :
    declarations (.clause spelled :: rest) = declarations rest := rfl

theorem flatMap_relations (statements : List Statement) :
    statements.flatMap Statement.relations =
      (declarations statements).flatMap Declaration.relations := by
  induction statements with
  | nil => rfl
  | cons stated rest ih =>
      rw [List.flatMap_cons, ih]
      cases stated with
      | declaration declared => rfl
      | clause spelled => rfl

theorem map_name_flatMap_relations (declared : List Declaration) :
    (declared.flatMap Declaration.relations).map Relation.name =
      declared.flatMap Declaration.names := by
  rw [List.map_flatMap]
  exact List.flatMap_congr fun first _ => first.names_relations

/-- **A name stands for what the first declaration says that lists it.** -/
theorem find?_flatMap_relations (declared : List Declaration) (wanted : String) :
    (declared.flatMap Declaration.relations).find? (fun relation => relation.name == wanted) =
      (declared.find? fun first => decide (wanted ∈ first.names)).map
        fun first => first.relation wanted := by
  induction declared with
  | nil => rfl
  | cons first rest ih =>
      rw [List.flatMap_cons, List.find?_append, ih, Declaration.find?_relations, List.find?_cons]
      by_cases listed : wanted ∈ first.names
      · rw [if_pos listed, decide_eq_true listed]
        rfl
      · rw [if_neg listed, decide_eq_false listed, Option.none_or]

/-- The names that declarations list although an earlier one has listed them. -/
def redeclarations : List String → List Declaration → List String
  | _, [] => []
  | known, declared :: rest =>
    declared.redeclared known ++ redeclarations (known ++ declared.names) rest

theorem redeclarations_congr {known known' : List String}
    (same : ∀ name, name ∈ known ↔ name ∈ known') (declared : List Declaration) :
    redeclarations known declared = redeclarations known' declared := by
  induction declared generalizing known known' with
  | nil => rfl
  | cons first rest ih =>
      have once : first.redeclared known = first.redeclared known' := by
        apply List.filter_congr
        intro name _
        exact decide_eq_decide.mpr (same name)
      rw [redeclarations, redeclarations, once, ih]
      intro name
      rw [List.mem_append, List.mem_append, same]

/-! ## What is counted -/

namespace Tally

/-- **A declaration is counted by its names.** -/
theorem declare_eq (tally : Tally) (declared : Declaration) :
    tally.declare declared.relations =
      { tally with
        relations := declared.relations.foldl Relation.enter tally.relations
        errors := tally.errors + (declared.redeclared (tally.relations.map Relation.name)).length
        warnings := tally.warnings + if tally.quiet then 0 else declared.repeated.length } := by
  have listed := @length_listedAgain [] [] (by simp) declared.relations
  rw [List.length_nil, Nat.zero_add, declared.names_relations] at listed
  have repeated : declared.relations.length -
      (declared.relations.foldl Relation.enter []).length = declared.repeated.length := by
    rw [← listed, Nat.add_sub_cancel_left]
    rfl
  rw [declare, Declaration.countP_foldl_enter_relations, repeated]

end Tally

end Datalog
