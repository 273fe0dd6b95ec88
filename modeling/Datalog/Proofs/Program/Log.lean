import Datalog.Proofs.Program.Operations
import Datalog.Proofs.Symbol.Issued
import Mathlib.Data.List.Sort

/-!
# Programs as logs

A log remembers all that was ever appended to a program, in order, and what of it
has been withdrawn since; the place of a clause among all clauses that were ever
appended is its handle.  What an operation does to a log, and what is answered, is
told by rules (`Log.Does`): a clause is removed by value under the smallest handle
that still holds a clause of the same content, and a rule for a failure leaves the
log as it is.

A program shows a log if it has exactly what the log has not withdrawn
(`Log.Shows`).  Every operation on a program follows a rule (`Log.Shows.step`), and
so does every history that begins with the empty program
(`Program.history_refines_log`).
-/

set_option autoImplicit false

namespace Datalog

open Program (Operation Answer stringClause)

/-! ## Logs -/

/-- What was appended, and whether it is still there. -/
structure Entry (α : Type) where
  value : α
  present : Bool := true
deriving DecidableEq

/-- What an entry holds, as long as it is there. -/
def Entry.value? {α : Type} (entry : Entry α) : Option α :=
  if entry.present then some entry.value else none

/-- The entry without what it held. -/
def Entry.withdraw {α : Type} (entry : Entry α) : Entry α := { entry with present := false }

@[simp] theorem Entry.value?_withdraw {α : Type} (entry : Entry α) : entry.withdraw.value? = none :=
  rfl

/-- The relations and the clauses that were ever appended, in order. -/
structure Log where
  relations : List (Entry Relation) := []
  clauses : List (Entry InternedClause) := []

namespace Log

/-- The relations that are there, in the order in which they were appended. -/
def presentRelations (log : Log) : List Relation := log.relations.filterMap Entry.value?

/-- The clauses that are there, in the order in which they were appended. -/
def presentClauses (log : Log) : List InternedClause := log.clauses.filterMap Entry.value?

/-- The clause that was appended under a handle, as long as it is there. -/
def clause? (log : Log) (handle : Nat) : Option InternedClause :=
  log.clauses[handle]?.bind Entry.value?

/-- The clauses that are there, with their handles. -/
def entries (log : Log) : List (Nat × InternedClause) :=
  log.clauses.zipIdx.filterMap fun (entry, handle) =>
    entry.value?.map fun clause => (handle, clause)

/-- The log with one more relation. -/
def logRelation (log : Log) (relation : Relation) : Log :=
  { log with relations := log.relations ++ [⟨relation, true⟩] }

/-- The log with one more clause. -/
def logClause (log : Log) (clause : InternedClause) : Log :=
  { log with clauses := log.clauses ++ [⟨clause, true⟩] }

/-- The log in which no relation of a name is there. -/
def withdrawRelation (log : Log) (name : String) : Log :=
  { log with
    relations := log.relations.map fun entry =>
      if entry.value.name = name then entry.withdraw else entry }

/-- The log in which nothing is there under a handle. -/
def withdrawClause (log : Log) (handle : Nat) : Log :=
  { log with clauses := log.clauses.modify handle Entry.withdraw }

/-- A relation of a name is there, or none. -/
def Declares (log : Log) (name : String) : Option Relation → Prop
  | some relation => relation ∈ log.presentRelations ∧ relation.name = name
  | none => ∀ relation ∈ log.presentRelations, relation.name ≠ name

/-- A clause of the same content is there under a handle. -/
def Matches (log : Log) (clause : InternedClause) (handle : Nat) : Prop :=
  ∃ held, log.clause? handle = some held ∧ held.content = clause.content

/-- The smallest handle under which a clause of the same content is there, or none. -/
def First (log : Log) (clause : InternedClause) : Option Nat → Prop
  | some handle => log.Matches clause handle ∧ ∀ smaller < handle, ¬ log.Matches clause smaller
  | none => ∀ handle, ¬ log.Matches clause handle

/-! ## Rules -/

/-- What an operation does to a log, and what is answered. -/
inductive Does (log : Log) : Operation → Answer → Log → Prop where
  | appendRelation {relation : Relation} (free : log.Declares relation.name none) :
      Does log (.appendRelation relation) .done (log.logRelation relation)
  | refuseRelation {relation declared : Relation}
      (taken : log.Declares relation.name (some declared)) :
      Does log (.appendRelation relation) (.refused (.duplicateRelation relation.name)) log
  | removeRelation {name : String} {relation : Relation}
      (declared : log.Declares name (some relation)) :
      Does log (.removeRelation name) (.foundRelation (some relation)) (log.withdrawRelation name)
  | missRelation {name : String} (absent : log.Declares name none) :
      Does log (.removeRelation name) (.foundRelation none) log
  | appendClause {clause : InternedClause} :
      Does log (.appendClause clause) (.issued log.clauses.length) (log.logClause clause)
  | removeClause {clause held : InternedClause} {handle : Nat}
      (first : log.First clause (some handle)) (holds : log.clause? handle = some held) :
      Does log (.removeClause clause) (.foundClause (some held)) (log.withdrawClause handle)
  | missClause {clause : InternedClause} (absent : log.First clause none) :
      Does log (.removeClause clause) (.foundClause none) log
  | removeHandle {handle : Nat} {held : InternedClause} (holds : log.clause? handle = some held) :
      Does log (.removeHandle handle) (.foundClause (some held)) (log.withdrawClause handle)
  | missHandle {handle : Nat} (dead : log.clause? handle = none) :
      Does log (.removeHandle handle) (.foundClause none) log
  | relationNamed {name : String} {found : Option Relation} (declared : log.Declares name found) :
      Does log (.relationNamed name) (.foundRelation found) log
  | relations : Does log .relations (.relations log.presentRelations) log
  | clauseAt {handle : Nat} : Does log (.clauseAt handle) (.foundClause (log.clause? handle)) log
  | findClause {clause : InternedClause} {found : Option Nat} (first : log.First clause found) :
      Does log (.findClause clause) (.foundHandle found) log
  | clauses : Does log .clauses (.clauses log.presentClauses) log
  | entries : Does log .entries (.entries log.entries) log
  | size : Does log .size (.size log.presentClauses.length) log
  | isEmpty :
      Does log .isEmpty (.flag (log.presentRelations.isEmpty && log.presentClauses.isEmpty)) log

/-- What operations do to a log that are performed in order. -/
inductive Runs : Log → List Operation → List Answer → Log → Prop where
  | nil {log : Log} : Runs log [] [] log
  | cons {log next final : Log} {operation : Operation} {answer : Answer}
      {operations : List Operation} {answers : List Answer} (first : log.Does operation answer next)
      (others : Runs next operations answers final) :
      Runs log (operation :: operations) (answer :: answers) final

/-- A program has what a log has not withdrawn, and the next handle is one that
the log has not given. -/
structure Shows (log : Log) (program : Program) : Prop where
  relations : program.relations = log.presentRelations
  held : ∀ handle clause, (handle, clause) ∈ program.clauses ↔ log.clause? handle = some clause
  next : program.nextHandle = log.clauses.length

/-! ## Appending and withdrawing -/

theorem presentRelations_logRelation (log : Log) (relation : Relation) :
    (log.logRelation relation).presentRelations = log.presentRelations ++ [relation] := by
  simp [presentRelations, logRelation, Entry.value?]

theorem presentRelations_withdrawRelation (log : Log) (name : String) :
    (log.withdrawRelation name).presentRelations =
      log.presentRelations.filter fun relation => relation.name != name := by
  rw [presentRelations, presentRelations, withdrawRelation, List.filterMap_map,
    List.filter_filterMap]
  congr 1
  funext entry
  obtain ⟨relation, _ | _⟩ := entry <;> by_cases same : relation.name = name <;>
    simp [Entry.value?, Entry.withdraw, Option.filter, same]

theorem clause?_lt {log : Log} {handle : Nat} {clause : InternedClause}
    (held : log.clause? handle = some clause) : handle < log.clauses.length := by
  obtain ⟨entry, found, -⟩ := Option.bind_eq_some_iff.mp held
  exact (List.getElem?_eq_some_iff.mp found).1

theorem clause?_logClause (log : Log) (clause : InternedClause) (handle : Nat) :
    (log.logClause clause).clause? handle =
      if handle = log.clauses.length then some clause else log.clause? handle := by
  rw [clause?, clause?, logClause, List.getElem?_append]
  by_cases old : handle < log.clauses.length
  · rw [if_pos old, if_neg (Nat.ne_of_lt old)]
  · rw [if_neg old, List.getElem?_singleton, List.getElem?_eq_none (Nat.le_of_not_lt old)]
    by_cases next : handle = log.clauses.length
    · simp [next, Entry.value?]
    · have behind : handle - log.clauses.length ≠ 0 := by omega
      simp [next, behind]

theorem clause?_withdrawClause (log : Log) (handle other : Nat) :
    (log.withdrawClause handle).clause? other =
      if other = handle then none else log.clause? other := by
  rw [clause?, clause?, withdrawClause, List.getElem?_modify]
  by_cases same : other = handle
  · subst same
    cases log.clauses[other]? <;> simp
  · simp [same, Ne.symm same]

/-- What is withdrawn keeps its place. -/
theorem values_withdrawClause (log : Log) (handle : Nat) :
    (log.withdrawClause handle).clauses.map Entry.value = log.clauses.map Entry.value := by
  refine List.ext_getElem? fun place => ?_
  rw [withdrawClause, List.getElem?_map, List.getElem?_map, List.getElem?_modify]
  by_cases same : handle = place
  · cases log.clauses[place]? <;> simp [same, Entry.withdraw]
  · simp [same]

/-! ## Clauses with their handles -/

theorem mem_entries {log : Log} {handle : Nat} {clause : InternedClause} :
    (handle, clause) ∈ log.entries ↔ log.clause? handle = some clause := by
  rw [entries, List.mem_filterMap, clause?, Option.bind_eq_some_iff]
  constructor
  · rintro ⟨⟨entry, handle'⟩, member, found⟩
    obtain ⟨clause', holds, same⟩ := Option.map_eq_some_iff.mp found
    cases same
    exact ⟨entry, List.mem_zipIdx_iff_getElem?.mp member, holds⟩
  · rintro ⟨entry, found, holds⟩
    refine ⟨(entry, handle), List.mem_zipIdx_iff_getElem?.mpr found, ?_⟩
    exact congrArg (Option.map fun clause => (handle, clause)) holds

theorem entries_ascending (log : Log) : log.entries.Pairwise fun first second =>
    first.1 < second.1 := by
  have places : log.clauses.zipIdx.Pairwise fun first second => first.2 < second.2 := by
    refine List.pairwise_map.mp ?_
    rw [List.zipIdx_map_snd]
    exact List.pairwise_lt_range'
  refine places.filterMap _ ?_
  rintro ⟨entry, handle⟩ ⟨entry', handle'⟩ smaller pair found pair' found'
  obtain ⟨clause, -, rfl⟩ := Option.map_eq_some_iff.mp found
  obtain ⟨clause', -, rfl⟩ := Option.map_eq_some_iff.mp found'
  exact smaller

theorem map_snd_entries (log : Log) : log.entries.map Prod.snd = log.presentClauses := by
  rw [entries, presentClauses, List.map_filterMap]
  conv_rhs => rw [← List.zipIdx_map_fst 0 log.clauses, List.filterMap_map]
  congr 1
  funext ⟨entry, handle⟩
  simp [Function.comp_def]

variable {log : Log} {program : Program}

/-- Clauses that are held under the same handles stand in the same order. -/
theorem Shows.clauses (shows : log.Shows program) : program.clauses = log.entries := by
  have irreflexive : Std.Irrefl fun first second : Nat × InternedClause => first.1 < second.1 :=
    ⟨fun entry => Nat.lt_irrefl entry.1⟩
  have antisymmetric : Std.Antisymm fun first second : Nat × InternedClause =>
      first.1 < second.1 :=
    ⟨fun _ _ smaller larger => absurd smaller (Nat.lt_asymm larger)⟩
  refine (List.pairwise_map.mp program.ascending).eq_of_mem_iff log.entries_ascending ?_
  rintro ⟨handle, clause⟩
  rw [shows.held, mem_entries]

theorem Shows.clauseList (shows : log.Shows program) :
    program.clauseList = log.presentClauses := by
  rw [Program.clauseList, shows.clauses, map_snd_entries]

theorem Shows.clause? (shows : log.Shows program) (handle : Nat) :
    program.clause? handle = log.clause? handle := by
  refine Option.ext fun clause => ?_
  rw [Program.clause?_eq_some_iff, shows.held]

/-! ## One operation -/

theorem Shows.declares (shows : log.Shows program) (name : String) :
    log.Declares name (program.relation? name) := by
  cases found : program.relation? name with
  | none =>
      intro relation member same
      rw [← shows.relations] at member
      exact (program.relation?_eq_none_iff name).mp found (same ▸ List.mem_map_of_mem member)
  | some relation =>
      obtain ⟨member, same⟩ := (find?_key_eq_some_iff program.distinct).mp found
      exact ⟨shows.relations ▸ member, same⟩

/-- Finding a clause finds the smallest handle that holds its content, if every
comparison on the way is one of contents. -/
theorem Shows.first (shows : log.Shows program) {clause : InternedClause}
    (contents : ∀ held ∈ program.clauseList,
      (held == clause) = true ↔ held.content = clause.content) :
    log.First clause (program.findClause? clause) := by
  have matched {handle : Nat} : log.Matches clause handle ↔
      ∃ held, (handle, held) ∈ program.clauses ∧ (held == clause) = true := by
    refine exists_congr fun held => ?_
    rw [← shows.held]
    refine and_congr_right fun member => (contents held ?_).symm
    exact List.mem_map_of_mem member
  cases found : program.findClause? clause with
  | none =>
      intro handle like
      obtain ⟨held, member, equal⟩ := matched.mp like
      rw [Program.findClause?, Option.map_eq_none_iff, List.find?_eq_none] at found
      exact found _ member equal
  | some handle =>
      obtain ⟨held, member, equal, before⟩ := Program.findClause?_eq_some_iff.mp found
      refine ⟨matched.mpr ⟨held, member, equal⟩, fun smaller below like => ?_⟩
      obtain ⟨held', member', equal'⟩ := matched.mp like
      exact Bool.false_ne_true ((before _ member' below).symm.trans equal')

theorem Shows.appendRelation (shows : log.Shows program) {relation : Relation} {grown : Program}
    (appended : program.appendRelation relation = .ok grown) :
    (log.logRelation relation).Shows grown := by
  unfold Program.appendRelation at appended
  split at appended
  next =>
    cases appended
    refine ⟨?_, shows.held, shows.next⟩
    rw [presentRelations_logRelation, ← shows.relations]
  next => cases appended

theorem Shows.appendClause (shows : log.Shows program) (clause : InternedClause) :
    (log.logClause clause).Shows (program.appendClause clause).2 := by
  refine ⟨shows.relations, fun handle held => ?_, ?_⟩
  · rw [Program.appendClause, List.mem_append, List.mem_singleton, Prod.mk.injEq, shows.held,
      clause?_logClause, shows.next]
    split
    next same =>
      subst same
      have fresh : log.clause? log.clauses.length ≠ some held := fun found =>
        Nat.lt_irrefl _ (clause?_lt found)
      simp [fresh, eq_comm]
    next other => simp [other]
  · rw [logClause, List.length_append, ← shows.next]
    rfl

/-- Removing what is held under a handle withdraws it. -/
theorem Shows.removeHandle (shows : log.Shows program) {handle : Nat} {clause : InternedClause}
    (held : (handle, clause) ∈ program.clauses) :
    ∃ left, program.removeHandle handle = some (clause, left) ∧
      (log.withdrawClause handle).Shows left := by
  obtain ⟨left, removed, relations, next, clauses⟩ := Program.removeHandle_of_mem held
  refine ⟨left, removed, relations.trans shows.relations, fun other clause => ?_, ?_⟩
  · rw [clauses, List.mem_filter, shows.held, clause?_withdrawClause]
    split
    next same => simp [same]
    next apart => simp [apart]
  · rw [next, shows.next, withdrawClause, List.length_modify]

/-- **Every operation follows a rule**, if the clause that it is given is compared
by contents. -/
theorem Shows.step (shows : log.Shows program) {operation : Operation}
    (agree : ∀ held ∈ program.clauseList, Agree held.constants operation.constants) :
    ∃ next, log.Does operation (program.perform operation).1 next ∧
      next.Shows (program.perform operation).2 := by
  cases operation with
  | appendRelation relation =>
      have declared := shows.declares relation.name
      rw [Program.perform]
      split
      next grown appended =>
        have free : program.relation? relation.name = none := by
          by_contra taken
          rw [Program.appendRelation, dif_neg taken] at appended
          cases appended
        rw [free] at declared
        exact ⟨_, .appendRelation declared, shows.appendRelation appended⟩
      next error refused =>
        unfold Program.appendRelation at refused
        split at refused
        next => cases refused
        next taken =>
          cases refused
          obtain ⟨relation', found⟩ := Option.ne_none_iff_exists'.mp taken
          rw [found] at declared
          exact ⟨log, .refuseRelation declared, shows⟩
  | removeRelation name =>
      have declared := shows.declares name
      cases found : program.relation? name with
      | none =>
          rw [found] at declared
          rw [Program.perform, Program.removeRelation, found]
          exact ⟨log, .missRelation declared, shows⟩
      | some relation =>
          rw [found] at declared
          obtain ⟨left, removed, relations, next, clauses⟩ := Program.removeRelation_of_some found
          rw [Program.perform, removed]
          refine ⟨_, .removeRelation declared, ?_, ?_, next.trans shows.next⟩
          · rw [presentRelations_withdrawRelation, ← shows.relations, relations]
          · rw [clauses]
            exact shows.held
  | appendClause clause =>
      refine ⟨log.logClause clause, ?_, shows.appendClause clause⟩
      have issued : (program.perform (.appendClause clause)).1 = .issued log.clauses.length :=
        congrArg Answer.issued shows.next
      rw [issued]
      exact .appendClause
  | removeClause clause =>
      have first := shows.first fun held member => Clause.beq_iff_content (agree held member)
      cases found : program.findClause? clause with
      | none =>
          rw [found] at first
          rw [Program.perform, Program.removeClause_of_none found]
          exact ⟨log, .missClause first, shows⟩
      | some handle =>
          rw [found] at first
          obtain ⟨held, member, -⟩ := Program.findClause?_eq_some_iff.mp found
          obtain ⟨left, removed, after⟩ := shows.removeHandle member
          rw [Program.perform, Program.removeClause_of_some found, removed]
          exact ⟨_, .removeClause first ((shows.held _ _).mp member), after⟩
  | removeHandle handle =>
      cases held : program.clause? handle with
      | none =>
          rw [Program.perform, Program.removeHandle, held]
          exact ⟨log, .missHandle ((shows.clause? handle).symm.trans held), shows⟩
      | some clause =>
          have member := Program.clause?_eq_some_iff.mp held
          obtain ⟨left, removed, after⟩ := shows.removeHandle member
          rw [Program.perform, removed]
          exact ⟨_, .removeHandle ((shows.held _ _).mp member), after⟩
  | relationNamed name => exact ⟨log, .relationNamed (shows.declares name), shows⟩
  | relations =>
      refine ⟨log, ?_, shows⟩
      rw [Program.perform, shows.relations]
      exact .relations
  | clauseAt handle =>
      refine ⟨log, ?_, shows⟩
      rw [Program.perform, shows.clause? handle]
      exact .clauseAt
  | findClause clause =>
      have first := shows.first fun held member => Clause.beq_iff_content (agree held member)
      exact ⟨log, .findClause first, shows⟩
  | clauses =>
      refine ⟨log, ?_, shows⟩
      rw [Program.perform, shows.clauseList]
      exact .clauses
  | entries =>
      refine ⟨log, ?_, shows⟩
      rw [Program.perform, shows.clauses]
      exact .entries
  | size =>
      refine ⟨log, ?_, shows⟩
      have count : program.clauses.length = log.presentClauses.length := by
        rw [← shows.clauseList, Program.clauseList, List.length_map]
      rw [Program.perform, count]
      exact .size
  | isEmpty =>
      refine ⟨log, ?_, shows⟩
      have clauses : program.clauses.isEmpty = log.presentClauses.isEmpty := by
        rw [← shows.clauseList, Program.clauseList, List.isEmpty_map]
      rw [Program.perform, Program.isEmpty, clauses, shows.relations]
      exact .isEmpty

/-! ## Histories -/

/-- The clauses that were ever appended stand in the log in that order. -/
theorem Runs.values {log final : Log} {operations : List Operation} {answers : List Answer}
    (runs : Runs log operations answers final) :
    final.clauses.map Entry.value =
      log.clauses.map Entry.value ++ operations.filterMap Operation.appended? := by
  induction runs with
  | nil => exact (List.append_nil _).symm
  | cons first others ih =>
      rw [ih]
      cases first with
      | appendClause => simp [logClause, Operation.appended?]
      | removeClause | removeHandle =>
          rw [values_withdrawClause]
          rfl
      | _ => rfl

/-- Handles are given in increasing order, without a gap. -/
theorem Runs.issued {log final : Log} {operations : List Operation} {answers : List Answer}
    (runs : Runs log operations answers final) :
    answers.filterMap Answer.issued? =
      List.range' log.clauses.length (operations.filterMap Operation.appended?).length := by
  induction runs with
  | nil => rfl
  | cons first others ih =>
      cases first with
      | appendClause =>
          rw [logClause, List.length_append] at ih
          exact congrArg (List.cons _) ih
      | removeClause | removeHandle =>
          rw [withdrawClause, List.length_modify] at ih
          exact ih
      | _ => exact ih

/-- Histories follow the rules from one operation to the next. -/
theorem Shows.run (shows : log.Shows program) {store : SymbolStore} {operations : List Operation}
    (held : ∀ clause ∈ program.clauseList, store.Issues clause.constants)
    (issued : ∀ operation ∈ operations, store.Issues operation.constants) :
    ∃ final, log.Runs operations (program.performAll operations).1 final ∧
      final.Shows (program.performAll operations).2 := by
  induction operations generalizing log program with
  | nil => exact ⟨log, .nil, shows⟩
  | cons operation rest ih =>
      have operand := issued operation List.mem_cons_self
      obtain ⟨next, does, showing⟩ :=
        shows.step fun clause member => (held clause member).agree operand
      obtain ⟨final, runs, shown⟩ := ih showing (Program.forall_constants_perform held operand)
        (fun other member => issued other (List.mem_cons_of_mem _ member))
      exact ⟨final, .cons does runs, shown⟩

theorem shows_empty : Log.Shows {} Program.empty :=
  ⟨rfl, fun _ _ => by simp [Program.empty, clause?], rfl⟩

end Log

namespace Program

/-- **A program refines a log of what was appended to it.**  Whatever is done to the
empty program, with strings of whatever tables, follows the rules of a log, and
the program has what the log has not withdrawn.  Clauses are given the handles
zero, one, and so on, so the next handle is at most the number of operations; the
names of the relations are distinct; and an operation that fails changes nothing. -/
theorem history_refines_log {store : SymbolStore} {operations : List Operation}
    (issued : ∀ operation ∈ operations, store.Issues operation.constants) :
    let answers := (empty.performAll operations).1
    let program := (empty.performAll operations).2
    let appended := operations.filterMap Operation.appended?
    (∃ log : Log, Log.Runs {} operations answers log ∧
      log.clauses.map Entry.value = appended ∧
      program.relations = log.presentRelations ∧
      program.clauseList = log.presentClauses ∧
      ∀ handle, program.clause? handle = log.clause? handle) ∧
    answers.filterMap Answer.issued? = List.range appended.length ∧
    program.nextHandle = appended.length ∧ program.nextHandle ≤ operations.length ∧
    (program.relations.map Relation.name).Nodup ∧
    ∀ operation, (program.perform operation).1.failed = true →
      (program.perform operation).2 = program := by
  obtain ⟨log, runs, shows⟩ :=
    Log.shows_empty.run (by simp [clauseList, empty]) issued
  have values : log.clauses.map Entry.value = operations.filterMap Operation.appended? :=
    runs.values
  have next : (empty.performAll operations).2.nextHandle =
      (operations.filterMap Operation.appended?).length := by
    rw [shows.next, ← values, List.length_map]
  refine ⟨⟨log, runs, values, shows.relations, shows.clauseList, shows.clause?⟩, ?_, next, ?_,
    distinct _, fun operation => perform_of_failed⟩
  · rw [runs.issued, List.range_eq_range']
    rfl
  · rw [next]
    exact List.length_filterMap_le _ _

/-- Two tables that have numbered one text differently. -/
def crossedTables : SymbolStore where
  tables := [(SymbolTable.empty 0).insertAll ["a"], (SymbolTable.empty 1).insertAll ["b", "a"]]

/-- Of two clauses with the same text the first is removed by a clause whose text
is in another table; what is gone is not there to be removed again. -/
def crossedHistory : List Operation :=
  [.appendRelation ⟨"A", [], .default⟩, .appendRelation ⟨"A", [], .btree⟩,
    .appendClause (stringClause ⟨0, 0, "a"⟩), .appendClause (stringClause ⟨0, 0, "a"⟩),
    .removeClause (stringClause ⟨1, 1, "a"⟩), .removeHandle 0,
    .removeClause (stringClause ⟨1, 0, "b"⟩), .appendClause (stringClause ⟨1, 0, "b"⟩),
    .removeRelation "B"]

theorem history_refines_log_across_tables :
    (empty.performAll crossedHistory).2.handles = [1, 2] ∧
      ∃ log : Log, Log.Runs {} crossedHistory (empty.performAll crossedHistory).1 log ∧
        (empty.performAll crossedHistory).2.clauseList = log.presentClauses := by
  have issued : ∀ operation ∈ crossedHistory, crossedTables.Issues operation.constants := by
    have texts : ((SymbolTable.empty 0).insertAll ["a"]).texts = ["a"] ∧
        ((SymbolTable.empty 1).insertAll ["b", "a"]).texts = ["b", "a"] := ⟨rfl, rfl⟩
    simp [crossedHistory, stringClause, Operation.constants, Clause.constants,
      Argument.constantsAll, Argument.constants, Literal.constantsAll, SymbolStore.Issues,
      SymbolStore.Issued, SymbolStore.tableOf?, SymbolTable.resolve?, crossedTables, texts]
  obtain ⟨⟨log, runs, -, -, clauses, -⟩, -⟩ := history_refines_log issued
  exact ⟨by decide +kernel, log, runs, clauses⟩

end Program

end Datalog
