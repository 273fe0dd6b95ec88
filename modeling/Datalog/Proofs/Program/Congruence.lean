import Datalog.Proofs.Workspace
import Mathlib.Data.List.InsertIdx

/-!
# Equal programs behave alike

Equal programs may declare their relations in different orders, hold their clauses
under different handles and take their strings from different tables.  None of this
shows in what is asked of them by value.  An operation with equal operands is answered
alike by equal programs and leaves equal programs (`SameContent.perform`): a relation is
found in both or in neither, and the first clause that equals a given one stands at the
same place of both clause sequences (`SameContent.findClause?`), since what stands at
one place has the same content on both sides.

So equality is a congruence for every sequence of such operations, in every workspace
that can be reached (`Workspace.Reachable.equality_is_congruence`).
-/

set_option autoImplicit false

namespace Datalog

open Program (Operation stringClause)

namespace Program

/-! ## Equal operands and equal answers -/

/-- The same operation by value, with equal operands. -/
inductive Operation.Alike : Operation → Operation → Prop where
  | appendRelation {relation relation' : Relation} (equal : (relation == relation') = true) :
      Alike (.appendRelation relation) (.appendRelation relation')
  | removeRelation (name : String) : Alike (.removeRelation name) (.removeRelation name)
  | relationNamed (name : String) : Alike (.relationNamed name) (.relationNamed name)
  | appendClause {clause clause' : InternedClause} (equal : (clause == clause') = true) :
      Alike (.appendClause clause) (.appendClause clause')
  | removeClause {clause clause' : InternedClause} (equal : (clause == clause') = true) :
      Alike (.removeClause clause) (.removeClause clause')
  | findClause {clause clause' : InternedClause} (equal : (clause == clause') = true) :
      Alike (.findClause clause) (.findClause clause')

/-- Equal answers of two programs.  Handles that are found are compared by the places
of their clauses, and handles that are issued are not compared. -/
inductive Answer.Alike (left right : Program) : Answer → Answer → Prop where
  | done : Alike left right .done .done
  | refused (error : ProgramError) : Alike left right (.refused error) (.refused error)
  | foundRelation {found found' : Option Relation} (equal : (found == found') = true) :
      Alike left right (.foundRelation found) (.foundRelation found')
  | issued (handle handle' : Nat) : Alike left right (.issued handle) (.issued handle')
  | foundNowhere : Alike left right (.foundHandle none) (.foundHandle none)
  | foundHandle {place handle handle' : Nat} (stands : left.handles[place]? = some handle)
      (stands' : right.handles[place]? = some handle') :
      Alike left right (.foundHandle (some handle)) (.foundHandle (some handle'))
  | foundClause {found found' : Option InternedClause} (equal : (found == found') = true) :
      Alike left right (.foundClause found) (.foundClause found')

/-- Two programs are equal, answer two sequences of operations alike, and are equal
again behind each of the operations. -/
inductive Congruent : Program → Program → List Operation → List Operation → Prop where
  | nil {left right : Program} (equal : (left == right) = true) : Congruent left right [] []
  | cons {left right : Program} {operation operation' : Operation}
      {operations operations' : List Operation} (equal : (left == right) = true)
      (answered : Answer.Alike left right (left.perform operation).1 (right.perform operation').1)
      (others : Congruent (left.perform operation).2 (right.perform operation').2 operations
        operations') :
      Congruent left right (operation :: operations) (operation' :: operations')

/-! ## Relations -/

namespace SameContent

variable {left right : Program}

theorem mem_iff (same : left.SameContent right) (relation : Relation) :
    relation ∈ left.relations ↔ relation ∈ right.relations :=
  ⟨same.mem, same.symm.mem⟩

/-- Programs that declare the same relations declare equal names alike. -/
theorem of_mem_iff
    (declared : ∀ relation, relation ∈ left.relations ↔ relation ∈ right.relations)
    (clauses : left.clauseList.map Clause.content = right.clauseList.map Clause.content) :
    left.SameContent right where
  names name := by
    simp only [List.mem_map, declared]
  alike relation member relation' member' named := by
    rw [eq_of_name_eq ((declared relation).mp member) member' named]
    exact ⟨rfl, rfl⟩
  clauses := clauses

/-- **A name is declared alike by programs of the same content.** -/
theorem relation?_eq (same : left.SameContent right) (name : String) :
    left.relation? name = right.relation? name := by
  ext relation
  rw [relation?, relation?, find?_key_eq_some_iff left.distinct,
    find?_key_eq_some_iff right.distinct, same.mem_iff]

/-! ## Places of clauses -/

/-- Sequences with the same contents have equal clauses at equal places. -/
theorem content_getElem (same : left.SameContent right) {place : Nat}
    (inLeft : place < left.clauses.length) (inRight : place < right.clauses.length) :
    left.clauses[place].2.content = right.clauses[place].2.content := by
  have entries := congrArg (fun contents => contents[place]?) same.clauses
  simpa [clauseList, inLeft, inRight] using entries

theorem length_clauses_eq (same : left.SameContent right) :
    left.clauses.length = right.clauses.length := by
  have lengths := congrArg List.length same.clauses
  simpa [clauseList] using lengths

theorem handles_getElem? {program : Program} {place : Nat}
    (inside : place < program.clauses.length) :
    program.handles[place]? = some program.clauses[place].1 := by
  simp [handles, inside]

/-- The first clause of a content, by its place. -/
theorem findClause?_eq_some_iff_place {program : Program} {clause : InternedClause}
    (contents : ∀ held ∈ program.clauseList,
      (held == clause) = true ↔ held.content = clause.content) {handle : Nat} :
    program.findClause? clause = some handle ↔
      ∃ (place : Nat) (inside : place < program.clauses.length),
        program.clauses[place].1 = handle ∧
        program.clauses[place].2.content = clause.content ∧
        ∀ (earlier : Nat) (before : earlier < place),
          program.clauses[earlier].2.content ≠ clause.content := by
  have compared {place : Nat} (inside : place < program.clauses.length) :
      (program.clauses[place].2 == clause) = true ↔
        program.clauses[place].2.content = clause.content :=
    contents _ (List.mem_map_of_mem (List.getElem_mem inside))
  rw [findClause?, Option.map_eq_some_iff]
  constructor
  · rintro ⟨entry, found, rfl⟩
    obtain ⟨equal, place, inside, rfl, before⟩ := List.find?_eq_some_iff_getElem.mp found
    refine ⟨place, inside, rfl, (compared inside).mp equal, fun earlier sooner like => ?_⟩
    have missed := before earlier sooner
    rw [(compared (Nat.lt_trans sooner inside)).mpr like] at missed
    cases missed
  · rintro ⟨place, inside, rfl, like, before⟩
    refine ⟨_, List.find?_eq_some_iff_getElem.mpr ⟨(compared inside).mpr like, place, inside, rfl,
      fun earlier sooner => ?_⟩, rfl⟩
    have apart := mt (compared (Nat.lt_trans sooner inside)).mp (before earlier sooner)
    simpa using apart

/-- What is found in one of two programs of the same content is found in the other
one, at the same place. -/
theorem findClause?_of_some (same : left.SameContent right) {clause clause' : InternedClause}
    (alike : clause.content = clause'.content)
    (contents : ∀ held ∈ left.clauseList,
      (held == clause) = true ↔ held.content = clause.content)
    (contents' : ∀ held ∈ right.clauseList,
      (held == clause') = true ↔ held.content = clause'.content)
    {handle : Nat} (found : left.findClause? clause = some handle) :
    ∃ (place : Nat) (inLeft : place < left.clauses.length) (inRight : place < right.clauses.length),
      left.clauses[place].1 = handle ∧
        right.findClause? clause' = some right.clauses[place].1 := by
  obtain ⟨place, inLeft, rfl, like, before⟩ := (findClause?_eq_some_iff_place contents).mp found
  have inRight : place < right.clauses.length := same.length_clauses_eq ▸ inLeft
  refine ⟨place, inLeft, inRight, rfl, ?_⟩
  refine (findClause?_eq_some_iff_place contents').mpr ⟨place, inRight, rfl, ?_, ?_⟩
  · rw [← same.content_getElem inLeft inRight, like, alike]
  · intro earlier sooner
    rw [← same.content_getElem (Nat.lt_trans sooner inLeft) (Nat.lt_trans sooner inRight), ← alike]
    exact before earlier sooner

/-- **The first clause of a content stands at the same place of both programs**, or
there is none in either. -/
theorem findClause? (same : left.SameContent right) {clause clause' : InternedClause}
    (alike : clause.content = clause'.content)
    (contents : ∀ held ∈ left.clauseList,
      (held == clause) = true ↔ held.content = clause.content)
    (contents' : ∀ held ∈ right.clauseList,
      (held == clause') = true ↔ held.content = clause'.content) :
    (left.findClause? clause = none ∧ right.findClause? clause' = none) ∨
      ∃ (place : Nat) (inLeft : place < left.clauses.length)
        (inRight : place < right.clauses.length),
        left.findClause? clause = some left.clauses[place].1 ∧
          right.findClause? clause' = some right.clauses[place].1 := by
  cases found : left.findClause? clause with
  | some handle =>
      obtain ⟨place, inLeft, inRight, rfl, found'⟩ :=
        same.findClause?_of_some alike contents contents' found
      exact .inr ⟨place, inLeft, inRight, rfl, found'⟩
  | none =>
      refine .inl ⟨rfl, ?_⟩
      by_contra some
      obtain ⟨handle, found'⟩ := Option.ne_none_iff_exists'.mp some
      obtain ⟨place, inRight, inLeft, rfl, there⟩ :=
        same.symm.findClause?_of_some alike.symm contents' contents found'
      rw [found] at there
      cases there

/-- Equal clauses stand at the same place, or in neither program, if all symbols are
issued. -/
theorem findClause?_of_beq (same : left.SameContent right) {store : SymbolStore}
    {clause clause' : InternedClause} (equal : (clause == clause') = true)
    (held : ∀ clause ∈ left.clauseList, store.Issues clause.constants)
    (held' : ∀ clause ∈ right.clauseList, store.Issues clause.constants)
    (issued : store.Issues clause.constants) (issued' : store.Issues clause'.constants) :
    (left.findClause? clause = none ∧ right.findClause? clause' = none) ∨
      ∃ (place : Nat) (inLeft : place < left.clauses.length)
        (inRight : place < right.clauses.length),
        left.findClause? clause = some left.clauses[place].1 ∧
          right.findClause? clause' = some right.clauses[place].1 := by
  have content := (Clause.beq_iff_content (issued.agree issued')).mp equal
  refine same.findClause? content (fun other member => ?_) (fun other member => ?_)
  · exact Clause.beq_iff_content ((held other member).agree issued)
  · exact Clause.beq_iff_content ((held' other member).agree issued')

/-- Removing what is held at a place leaves the other contents in order. -/
theorem removeHandle_getElem {program : Program} {place : Nat}
    (inside : place < program.clauses.length) :
    ∃ less, program.removeHandle program.clauses[place].1 = some (program.clauses[place].2, less) ∧
      less.relations = program.relations ∧
      less.clauseList.map Clause.content =
        (program.clauseList.map Clause.content).eraseIdx place := by
  have held : (program.clauses[place].1, program.clauses[place].2) ∈ program.clauses :=
    List.getElem_mem inside
  obtain ⟨less, removed, relations, -, clauses⟩ := removeHandle_of_mem held
  have first : (program.clauses.findIdx? fun entry => entry.1 == program.clauses[place].1) =
      some place := by
    refine List.findIdx?_eq_some_iff_getElem.mpr ⟨inside, beq_self_eq_true _, ?_⟩
    intro earlier sooner same
    -- handles ascend, so an earlier one is a smaller one
    have ascending := List.pairwise_iff_getElem.mp (List.pairwise_map.mp program.ascending) earlier
      place (Nat.lt_trans sooner inside) inside sooner
    exact Nat.ne_of_lt ascending (beq_iff_eq.mp same)
  have erased : less.clauses = program.clauses.eraseIdx place := by
    rw [clauses, ← eraseP_key (program.ascending.imp Nat.ne_of_lt), List.eraseP_eq_eraseIdx, first]
  refine ⟨less, removed, relations, ?_⟩
  rw [clauseList, erased, clauseList, List.eraseIdx_map, List.eraseIdx_map]

/-! ## One operation -/

/-- Programs of the same content remain so when each takes in or gives away the same
relations and the same contents. -/
theorem of_relations_eq (same : left.SameContent right) {left' right' : Program}
    (relations : left'.relations = left.relations) (relations' : right'.relations = right.relations)
    (clauses : left'.clauseList.map Clause.content = right'.clauseList.map Clause.content) :
    left'.SameContent right' := by
  refine of_mem_iff (fun relation => ?_) clauses
  rw [relations, relations', same.mem_iff]

theorem clauseList_eq {program program' : Program} (clauses : program.clauses = program'.clauses) :
    program.clauseList = program'.clauseList :=
  congrArg (List.map Prod.snd) clauses

/-- **Equal operations are answered alike by programs of the same content, and leave
programs of the same content**, if all symbols in them are issued. -/
theorem perform (same : left.SameContent right) {store : SymbolStore}
    {operation operation' : Operation} (alike : operation.Alike operation')
    (held : ∀ clause ∈ left.clauseList, store.Issues clause.constants)
    (held' : ∀ clause ∈ right.clauseList, store.Issues clause.constants)
    (issued : store.Issues operation.constants) (issued' : store.Issues operation'.constants) :
    Answer.Alike left right (left.perform operation).1 (right.perform operation').1 ∧
      (left.perform operation).2.SameContent (right.perform operation').2 := by
  cases alike with
  | @appendRelation relation _ equal =>
      obtain rfl := beq_iff_eq.mp equal
      have known := same.names relation.name
      by_cases taken : relation.name ∈ left.relations.map Relation.name
      · rw [Program.perform, Program.perform, appendRelation_of_present taken,
          appendRelation_of_present (known.mp taken)]
        exact ⟨.refused _, same⟩
      · obtain ⟨grown, appended, relations, clauses⟩ := appendRelation_of_absent taken
        obtain ⟨grown', appended', relations', clauses'⟩ :=
          appendRelation_of_absent (mt known.mpr taken)
        rw [Program.perform, Program.perform, appended, appended']
        refine ⟨.done, of_mem_iff (fun other => ?_) ?_⟩
        · rw [relations, relations', List.mem_append, List.mem_append, same.mem_iff]
        · rw [clauseList_eq clauses, clauseList_eq clauses', same.clauses]
  | removeRelation name =>
      have declared := same.relation?_eq name
      cases found : left.relation? name with
      | none =>
          rw [found] at declared
          rw [Program.perform, Program.perform, removeRelation, removeRelation, found, ← declared]
          exact ⟨.foundRelation (beq_self_eq_true _), same⟩
      | some relation =>
          rw [found] at declared
          obtain ⟨less, removed, relations, -, clauses⟩ := removeRelation_of_some found
          obtain ⟨less', removed', relations', -, clauses'⟩ :=
            removeRelation_of_some declared.symm
          rw [Program.perform, Program.perform, removed, removed']
          refine ⟨.foundRelation (beq_self_eq_true _), of_mem_iff (fun other => ?_) ?_⟩
          · rw [relations, relations', List.mem_filter, List.mem_filter, same.mem_iff]
          · rw [clauseList_eq clauses, clauseList_eq clauses', same.clauses]
  | relationNamed name =>
      rw [Program.perform, Program.perform, same.relation?_eq name]
      exact ⟨.foundRelation (beq_self_eq_true _), same⟩
  | @appendClause clause clause' equal =>
      refine ⟨.issued _ _, same.of_relations_eq rfl rfl ?_⟩
      have content := (Clause.beq_iff_content (issued.agree issued')).mp equal
      rw [Program.perform, Program.perform, Program.clauseList_appendClause,
        Program.clauseList_appendClause, List.map_append, List.map_append, same.clauses,
        List.map_singleton, List.map_singleton, content]
  | @removeClause clause clause' equal =>
      rw [Program.perform, Program.perform]
      rcases same.findClause?_of_beq equal held held' issued issued' with
        ⟨absent, absent'⟩ | ⟨place, inLeft, inRight, found, found'⟩
      · rw [removeClause_of_none absent, removeClause_of_none absent']
        exact ⟨.foundClause rfl, same⟩
      · obtain ⟨less, removed, relations, contents⟩ := removeHandle_getElem inLeft
        obtain ⟨less', removed', relations', contents'⟩ := removeHandle_getElem inRight
        rw [removeClause_of_some found, removeClause_of_some found', removed, removed']
        have first := held _ (List.mem_map_of_mem (List.getElem_mem inLeft))
        have second := held' _ (List.mem_map_of_mem (List.getElem_mem inRight))
        refine ⟨.foundClause ?_, same.of_relations_eq relations relations' ?_⟩
        · exact (Clause.beq_iff_content (first.agree second)).mpr
            (same.content_getElem inLeft inRight)
        · rw [contents, contents', same.clauses]
  | @findClause clause clause' equal =>
      rw [Program.perform, Program.perform]
      rcases same.findClause?_of_beq equal held held' issued issued' with
        ⟨absent, absent'⟩ | ⟨place, inLeft, inRight, found, found'⟩
      · rw [absent, absent']
        exact ⟨.foundNowhere, same⟩
      · rw [found, found']
        exact ⟨.foundHandle (handles_getElem? inLeft) (handles_getElem? inRight), same⟩

/-! ## Sequences of operations -/

/-- **Programs of the same content are congruent** for every sequence of operations. -/
theorem congruent (same : left.SameContent right) {store : SymbolStore}
    {operations operations' : List Operation}
    (alike : List.Forall₂ Operation.Alike operations operations')
    (held : ∀ clause ∈ left.clauseList, store.Issues clause.constants)
    (held' : ∀ clause ∈ right.clauseList, store.Issues clause.constants)
    (issued : ∀ operation ∈ operations, store.Issues operation.constants)
    (issued' : ∀ operation ∈ operations', store.Issues operation.constants) :
    Congruent left right operations operations' := by
  have equal : (left == right) = true := (beq_iff_sameContent fun clause member clause' member' =>
    (held clause member).agree (held' clause' member')).mpr same
  induction alike generalizing left right with
  | nil => exact .nil equal
  | @cons operation operation' rest rest' first others ih =>
      have operand := issued operation List.mem_cons_self
      have operand' := issued' operation' List.mem_cons_self
      have behind := forall_constants_perform held operand
      have behind' := forall_constants_perform held' operand'
      obtain ⟨answered, next⟩ := same.perform first held held' operand operand'
      refine .cons equal answered (ih next behind behind' ?_ ?_ ?_)
      · exact fun other member => issued other (List.mem_cons_of_mem _ member)
      · exact fun other member => issued' other (List.mem_cons_of_mem _ member)
      · exact (beq_iff_sameContent fun clause member clause' member' =>
          (behind clause member).agree (behind' clause' member')).mpr next

end SameContent

end Program

namespace Workspace

variable {workspace : Workspace}

/-- A workspace stays reachable while one of its programs is operated on. -/
theorem Reachable.operate (reachable : workspace.Reachable) {place : Nat} {program : Program}
    (listed : workspace.programs[place]? = some program) {operations : List Operation}
    (built : ∀ operation ∈ operations, workspace.Knows operation.constants) :
    Reachable
      { workspace with
        programs := workspace.programs.set place (program.performAll operations).2 } := by
  induction operations generalizing workspace program with
  | nil =>
      obtain ⟨inside, rfl⟩ := List.getElem?_eq_some_iff.mp listed
      rw [Program.performAll, List.set_getElem_self]
      exact reachable
  | cons operation rest ih =>
      obtain ⟨inside, -⟩ := List.getElem?_eq_some_iff.mp listed
      have first := reachable.step (.operate listed (built operation List.mem_cons_self))
      have others := ih first (List.getElem?_set_self inside)
        (fun other member => built other (List.mem_cons_of_mem _ member))
      rw [List.set_set] at others
      exact others

/-- **Equality is a congruence.**  In every workspace that can be reached, equal programs
answer equal operations alike, one after the other, and are equal again behind each of
them: they refuse the same relations with the same error, find and give away equal
relations and clauses, and find a clause at the same place.  The operands may be built
from whatever symbols are at hand. -/
theorem Reachable.equality_is_congruence (reachable : workspace.Reachable) {left right : Program}
    (listed : left ∈ workspace.programs) (listed' : right ∈ workspace.programs)
    (equal : (left == right) = true) {operations operations' : List Operation}
    (alike : List.Forall₂ Operation.Alike operations operations')
    (built : ∀ operation ∈ operations, workspace.Knows operation.constants)
    (built' : ∀ operation ∈ operations', workspace.Knows operation.constants) :
    left.Congruent right operations operations' := by
  have sound := reachable.sound
  have same := (sound.program_beq_iff listed listed').mp equal
  exact same.congruent alike
    (fun clause member => sound.issues (sound.built left listed clause member))
    (fun clause member => sound.issues (sound.built right listed' clause member))
    (fun operation member => sound.issues (built operation member))
    (fun operation member => sound.issues (built' operation member))

/-- How the programs of two tables come to hold one string each under other handles, and
to declare the same relations in another order. -/
def reordering : List Operation × List Operation :=
  ([.appendRelation ⟨"A", [], .default⟩, .appendRelation ⟨"B", [], .default⟩,
      .appendClause (stringClause ⟨1, 0, "b"⟩), .appendClause (stringClause ⟨0, 0, "a"⟩)],
    [.removeClause (stringClause ⟨1, 1, "a"⟩), .appendRelation ⟨"B", [], .default⟩,
      .appendRelation ⟨"A", [], .default⟩, .appendClause (stringClause ⟨0, 0, "a"⟩),
      .appendClause (stringClause ⟨1, 0, "b"⟩), .appendClause (stringClause ⟨1, 1, "a"⟩)])

/-- The two programs. -/
def reordered : Program × Program :=
  (((Program.empty.appendClause (stringClause ⟨0, 0, "a"⟩)).2.performAll reordering.1).2,
    ((Program.empty.appendClause (stringClause ⟨1, 1, "a"⟩)).2.performAll reordering.2).2)

theorem reordered_reachable :
    Reachable { twoTables with programs := [reordered.1, reordered.2] } := by
  have knows : ∀ operation ∈ reordering.1 ++ reordering.2,
      twoTables.Knows operation.constants := by
    simp [reordering, stringClause, Operation.constants, Clause.constants,
      Argument.constantsAll, Argument.constants, Literal.constantsAll, Knows, twoTables]
  rw [List.forall_mem_append] at knows
  have first := @Reachable.operate _ twoTables_reachable 0 _ rfl _ knows.1
  exact @Reachable.operate _ first 1 _ rfl _ knows.2

/-- A clause that is there twice is found and removed, and a relation is refused and
replaced, each with operands from the one table and from the other. -/
def inTable (symbol : Symbol) : List Operation :=
  [.findClause (stringClause symbol), .removeClause (stringClause symbol),
    .findClause (stringClause symbol), .appendRelation ⟨"A", [], .brie⟩, .removeRelation "A",
    .appendRelation ⟨"A", [], .brie⟩, .relationNamed "A", .appendClause (stringClause symbol)]

theorem equality_is_congruence_reordered :
    (reordered.1 == reordered.2) = true ∧
      reordered.1.relations.map Relation.name = ["A", "B"] ∧
      reordered.2.relations.map Relation.name = ["B", "A"] ∧
      reordered.1.handles = [0, 1, 2] ∧ reordered.2.handles = [1, 2, 3] ∧
      reordered.1.Congruent reordered.2 (inTable ⟨1, 1, "a"⟩) (inTable ⟨0, 0, "a"⟩) := by
  have knows : ∀ operation ∈ inTable ⟨1, 1, "a"⟩ ++ inTable ⟨0, 0, "a"⟩,
      twoTables.Knows operation.constants := by
    simp [inTable, stringClause, Operation.constants, Clause.constants,
      Argument.constantsAll, Argument.constants, Literal.constantsAll, Knows, twoTables]
  rw [List.forall_mem_append] at knows
  obtain ⟨built, built'⟩ := knows
  have equal : (reordered.1 == reordered.2) = true := by decide +kernel
  have same : (stringClause ⟨1, 1, "a"⟩ == stringClause ⟨0, 0, "a"⟩) = true := by decide +kernel
  have alike : List.Forall₂ Operation.Alike (inTable ⟨1, 1, "a"⟩) (inTable ⟨0, 0, "a"⟩) := by
    refine .cons (.findClause same) (.cons (.removeClause same) (.cons (.findClause same) ?_))
    refine .cons (.appendRelation (beq_self_eq_true _)) (.cons (.removeRelation _) ?_)
    refine .cons (.appendRelation (beq_self_eq_true _)) (.cons (.relationNamed _) ?_)
    exact .cons (.appendClause same) .nil
  refine ⟨equal, by decide +kernel, by decide +kernel, by decide +kernel, by decide +kernel, ?_⟩
  exact Reachable.equality_is_congruence reordered_reachable List.mem_cons_self
    (List.mem_cons_of_mem _ List.mem_cons_self) equal alike built built'

end Workspace

end Datalog
