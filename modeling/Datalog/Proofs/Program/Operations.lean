import Datalog.Proofs.Tree.Equality

/-!
# What can be done with a program

An operation takes a program to an answer and a program (`Program.perform`), and a
history is a list of operations that are performed one after the other
(`Program.performAll`).  An answer that says that there was nothing to do comes
with the program that was there before (`Program.perform_of_failed`).

Relations are known by names and clauses by handles, and neither is given twice.
So looking a key up finds the one entry that has it, and taking the first entry
with a key out of a list takes out every one (`eraseP_key`).
-/

set_option autoImplicit false

namespace Datalog

/-- Taking the first entry with a key out takes out every entry with it. -/
theorem eraseP_key {α κ : Type} [DecidableEq κ] {entries : List α} {key : α → κ}
    (distinct : (entries.map key).Nodup) (sought : κ) :
    (entries.eraseP fun entry => key entry == sought) =
      entries.filter fun entry => key entry != sought := by
  induction entries with
  | nil => rfl
  | cons entry rest ih =>
      rw [List.map_cons, List.nodup_cons] at distinct
      by_cases same : key entry = sought
      · subst same
        have others : ∀ other ∈ rest, (key other != key entry) = true := by
          intro other member
          have apart : key other ≠ key entry := fun same =>
            distinct.1 (same ▸ List.mem_map_of_mem member)
          simpa using apart
        rw [List.eraseP_cons_of_pos (by simp), List.filter_cons_of_neg (by simp),
          List.filter_eq_self.mpr others]
      · rw [List.eraseP_cons_of_neg (by simpa using same),
          List.filter_cons_of_pos (by simpa using same), ih distinct.2]

namespace Program

/-! ## Operations and answers -/

/-- What can be asked of a program. -/
inductive Operation where
  | appendRelation (relation : Relation)
  | removeRelation (name : String)
  | appendClause (clause : InternedClause)
  | removeClause (clause : InternedClause)
  | removeHandle (handle : Nat)
  | relationNamed (name : String)
  | relations
  | clauseAt (handle : Nat)
  | findClause (clause : InternedClause)
  | clauses
  | entries
  | size
  | isEmpty

/-- What a program answers. -/
inductive Answer where
  | done
  | refused (error : ProgramError)
  | foundRelation (found : Option Relation)
  | relations (all : List Relation)
  | issued (handle : Nat)
  | foundHandle (found : Option Nat)
  | foundClause (found : Option InternedClause)
  | clauses (all : List InternedClause)
  | entries (all : List (Nat × InternedClause))
  | size (count : Nat)
  | flag (holds : Bool)

/-- The constants in what an operation is given. -/
def Operation.constants : Operation → List (Int64 ⊕ Symbol)
  | .appendClause clause | .removeClause clause | .findClause clause => clause.constants
  | _ => []

/-- The clause that an operation appends. -/
def Operation.appended? : Operation → Option InternedClause
  | .appendClause clause => some clause
  | _ => none

/-- The handle that an answer gives to a clause. -/
def Answer.issued? : Answer → Option Nat
  | .issued handle => some handle
  | _ => none

/-- Whether an answer says that the operation was refused or found nothing. -/
def Answer.failed : Answer → Bool
  | .refused _ | .foundRelation none | .foundClause none | .foundHandle none => true
  | _ => false

/-- The answer of a program to an operation, and the program behind it. -/
def perform (program : Program) : Operation → Answer × Program
  | .appendRelation relation =>
    match program.appendRelation relation with
    | .ok grown => (.done, grown)
    | .error error => (.refused error, program)
  | .removeRelation name =>
    match program.removeRelation name with
    | some (relation, left) => (.foundRelation (some relation), left)
    | none => (.foundRelation none, program)
  | .appendClause clause =>
    let (handle, grown) := program.appendClause clause
    (.issued handle, grown)
  | .removeClause clause =>
    match program.removeClause clause with
    | some (removed, left) => (.foundClause (some removed), left)
    | none => (.foundClause none, program)
  | .removeHandle handle =>
    match program.removeHandle handle with
    | some (removed, left) => (.foundClause (some removed), left)
    | none => (.foundClause none, program)
  | .relationNamed name => (.foundRelation (program.relation? name), program)
  | .relations => (.relations program.relations, program)
  | .clauseAt handle => (.foundClause (program.clause? handle), program)
  | .findClause clause => (.foundHandle (program.findClause? clause), program)
  | .clauses => (.clauses program.clauseList, program)
  | .entries => (.entries program.clauses, program)
  | .size => (.size program.clauses.length, program)
  | .isEmpty => (.flag program.isEmpty, program)

/-- The answers to operations that are performed in order, and the program behind
the last one. -/
def performAll (program : Program) : List Operation → List Answer × Program
  | [] => ([], program)
  | operation :: rest =>
    let (answer, next) := program.perform operation
    let (answers, final) := next.performAll rest
    (answer :: answers, final)

/-- A clause that is about one string. -/
def stringClause (symbol : Symbol) : InternedClause := ⟨⟨"A", [.string symbol]⟩, []⟩

/-! ## What an operation leaves as it is -/

/-- **A failure changes nothing**: neither relations, nor clauses, nor the next
handle. -/
theorem perform_of_failed {program : Program} {operation : Operation}
    (failed : (program.perform operation).1.failed = true) :
    (program.perform operation).2 = program := by
  cases operation with
  | appendRelation relation =>
      rw [perform] at failed ⊢
      split at failed
      · cases failed
      · rfl
  | removeRelation name =>
      rw [perform] at failed ⊢
      split at failed
      · cases failed
      · rfl
  | appendClause clause => cases failed
  | removeClause clause =>
      rw [perform] at failed ⊢
      split at failed
      · cases failed
      · rfl
  | removeHandle handle =>
      rw [perform] at failed ⊢
      split at failed
      · cases failed
      · rfl
  | relationNamed | relations | clauseAt | findClause | clauses | entries | size | isEmpty => rfl

variable {program : Program}

/-- The clause with a given handle is the one that is held under it. -/
theorem clause?_eq_some_iff {handle : Nat} {clause : InternedClause} :
    program.clause? handle = some clause ↔ (handle, clause) ∈ program.clauses := by
  rw [clause?, Option.map_eq_some_iff]
  have distinct : (program.clauses.map Prod.fst).Nodup := program.ascending.imp Nat.ne_of_lt
  constructor
  · rintro ⟨⟨handle', clause'⟩, found, rfl⟩
    obtain ⟨member, rfl⟩ := (find?_key_eq_some_iff distinct).mp found
    exact member
  · intro member
    exact ⟨(handle, clause), (find?_key_eq_some_iff distinct).mpr ⟨member, rfl⟩, rfl⟩

/-- Removing what is held under a handle removes nothing else. -/
theorem removeHandle_of_mem {handle : Nat} {clause : InternedClause}
    (held : (handle, clause) ∈ program.clauses) :
    ∃ left, program.removeHandle handle = some (clause, left) ∧
      left.relations = program.relations ∧ left.nextHandle = program.nextHandle ∧
      left.clauses = program.clauses.filter fun entry => entry.1 != handle := by
  rw [removeHandle, clause?_eq_some_iff.mpr held]
  refine ⟨_, rfl, rfl, rfl, ?_⟩
  exact eraseP_key (program.ascending.imp Nat.ne_of_lt) handle

/-- Removing a relation removes nothing else. -/
theorem removeRelation_of_some {name : String} {relation : Relation}
    (found : program.relation? name = some relation) :
    ∃ left, program.removeRelation name = some (relation, left) ∧
      left.relations = (program.relations.filter fun other => other.name != name) ∧
      left.nextHandle = program.nextHandle ∧ left.clauses = program.clauses := by
  rw [removeRelation, found]
  exact ⟨_, rfl, eraseP_key program.distinct name, rfl, rfl⟩

/-- The clause behind the first handle that is found is an equal one, and none of
those in front of it is. -/
theorem findClause?_eq_some_iff {clause : InternedClause} {handle : Nat} :
    program.findClause? clause = some handle ↔
      ∃ found, (handle, found) ∈ program.clauses ∧ (found == clause) = true ∧
        ∀ entry ∈ program.clauses, entry.1 < handle → (entry.2 == clause) = false := by
  rw [findClause?, Option.map_eq_some_iff]
  have ascending := List.pairwise_map.mp program.ascending
  constructor
  · rintro ⟨⟨handle', found⟩, first, rfl⟩
    obtain ⟨equal, front, rest, split, before⟩ := List.find?_eq_some_iff_append.mp first
    refine ⟨found, split ▸ List.mem_append_right _ List.mem_cons_self, equal, ?_⟩
    intro entry member smaller
    rw [split, List.pairwise_append, List.pairwise_cons] at ascending
    rw [split, List.mem_append, List.mem_cons] at member
    rcases member with member | rfl | member
    · simpa using before entry member
    · exact absurd smaller (Nat.lt_irrefl _)
    · exact absurd smaller (Nat.lt_asymm (ascending.2.1.1 entry member))
  · rintro ⟨found, member, equal, before⟩
    obtain ⟨front, rest, split⟩ := List.append_of_mem member
    refine ⟨(handle, found), ?_, rfl⟩
    refine List.find?_eq_some_iff_append.mpr ⟨equal, front, rest, split, ?_⟩
    intro entry early
    rw [split, List.pairwise_append] at ascending
    rw [before entry (split ▸ List.mem_append_left _ early)
      (ascending.2.2 entry early (handle, found) List.mem_cons_self)]
    rfl

/-- Removing by value removes what is held under the first handle that is found. -/
theorem removeClause_of_some {clause : InternedClause} {handle : Nat}
    (found : program.findClause? clause = some handle) :
    program.removeClause clause = program.removeHandle handle := by
  rw [removeClause, found]
  rfl

theorem removeClause_of_none {clause : InternedClause}
    (absent : program.findClause? clause = none) : program.removeClause clause = none := by
  rw [removeClause, absent]
  rfl

theorem mem_clauseList_removeHandle {left : Program} {handle : Nat}
    {removed clause : InternedClause} (after : program.removeHandle handle = some (removed, left))
    (member : clause ∈ left.clauseList) : clause ∈ program.clauseList := by
  rw [removeHandle, Option.map_eq_some_iff] at after
  obtain ⟨_, -, same⟩ := after
  cases same
  exact (List.eraseP_sublist.map Prod.snd).subset member

/-- A clause that is held behind an operation was held before it or is appended by it. -/
theorem mem_clauseList_perform {operation : Operation} {clause : InternedClause}
    (member : clause ∈ (program.perform operation).2.clauseList) :
    clause ∈ program.clauseList ∨ operation.appended? = some clause := by
  cases operation with
  | appendRelation relation =>
      rw [perform, appendRelation] at member
      split at member
      next grown appended =>
        split at appended
        · cases appended
          exact .inl member
        · cases appended
      next => exact .inl member
  | removeRelation name =>
      rw [perform] at member
      cases found : program.relation? name with
      | none =>
          rw [removeRelation, found] at member
          exact .inl member
      | some relation =>
          obtain ⟨left, removed, -, -, clauses⟩ := removeRelation_of_some found
          rw [removed] at member
          rw [clauseList, clauses] at member
          exact .inl member
  | appendClause appended =>
      rw [perform, appendClause, clauseList, List.map_append, List.mem_append] at member
      rcases member with member | last
      · exact .inl member
      · exact .inr (congrArg some (List.mem_singleton.mp last).symm)
  | removeClause sought =>
      rw [perform] at member
      cases found : program.findClause? sought with
      | none =>
          rw [removeClause_of_none found] at member
          exact .inl member
      | some handle =>
          rw [removeClause_of_some found] at member
          split at member
          next removed left after => exact .inl (mem_clauseList_removeHandle after member)
          next => exact .inl member
  | removeHandle handle =>
      rw [perform] at member
      split at member
      next removed left after => exact .inl (mem_clauseList_removeHandle after member)
      next => exact .inl member
  | relationNamed | relations | clauseAt | findClause | clauses | entries | size | isEmpty =>
      exact .inl member

/-- What is true of the constants of all clauses and of the operand stays so. -/
theorem forall_constants_perform {P : List (Int64 ⊕ Symbol) → Prop} {operation : Operation}
    (held : ∀ clause ∈ program.clauseList, P clause.constants) (operand : P operation.constants) :
    ∀ clause ∈ (program.perform operation).2.clauseList, P clause.constants := by
  intro clause member
  rcases mem_clauseList_perform member with member | appended
  · exact held clause member
  · cases operation <;> cases appended
    exact operand

end Program

end Datalog
