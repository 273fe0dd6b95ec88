import Datalog.Interning
import Datalog.Proofs.Tree.Constants
import Mathlib.Data.List.Basic

/-!
# What interning does

Interning a clause is described by its constants alone.  It is stopped by the
first numeral that is out of range (`rejected?`), and it enters the texts in front
of that numeral (`entered`), in the order in which they are written.  If nothing
stops it, every numeral has become the machine integer that it denotes, and every
text its symbol in the table at the end.

`Interns` says this of any piece of the work and carries over from the pieces to
the whole, because a table that grows does not renumber its texts
(`SymbolTable.symbolOf_insertAll`).
-/

set_option autoImplicit false

namespace Datalog

/-! ## Tables that grow -/

namespace SymbolTable

/-- The symbol of a text in a table that has numbered it. -/
def symbolOf (table : SymbolTable) (text : String) : Symbol :=
  ⟨table.key, table.texts.idxOf text, text⟩

theorem insertAll_append (table : SymbolTable) (texts texts' : List String) :
    table.insertAll (texts ++ texts') = (table.insertAll texts).insertAll texts' :=
  List.foldl_append

theorem key_insertAll (table : SymbolTable) (texts : List String) :
    (table.insertAll texts).key = table.key := by
  induction texts generalizing table with
  | nil => rfl
  | cons text texts ih => exact (ih (table.insert text)).trans (key_insert table text)

theorem mem_insert (table : SymbolTable) (text : String) : text ∈ (table.insert text).texts := by
  rw [texts_insert]
  split
  · assumption
  · simp

theorem symbolOf_insert {table : SymbolTable} {text : String} (known : text ∈ table.texts)
    (other : String) : (table.insert other).symbolOf text = table.symbolOf text := by
  rw [symbolOf, symbolOf, key_insert, texts_insert]
  split
  · rfl
  · rw [List.idxOf_append_of_mem known]

/-- **A table that grows does not renumber its texts.** -/
theorem symbolOf_insertAll {table : SymbolTable} {text : String} (known : text ∈ table.texts)
    (more : List String) : (table.insertAll more).symbolOf text = table.symbolOf text := by
  induction more generalizing table with
  | nil => rfl
  | cons other more ih =>
      have kept : text ∈ (table.insert other).texts := by
        rw [texts_insert]
        split
        · exact known
        · exact List.mem_append_left _ known
      exact (ih kept).trans (symbolOf_insert known other)

/-- The symbol that is handed out for a text is its symbol in the table behind it. -/
theorem symbol_eq (table : SymbolTable) (text : String) :
    table.symbol text = ((table.insert text).symbolOf text, table.insert text) := by
  have place : (table.insert text).texts.idxOf text = table.texts.idxOf text := by
    rw [texts_insert]
    split
    next => rfl
    next absent =>
      rw [List.idxOf_append_of_notMem absent, List.idxOf_eq_length absent, List.idxOf_cons_self]
      rfl
  simp only [symbol, intern, symbolOf, place, key_insert]

end SymbolTable

/-! ## Constants that are taken -/

/-- The machine integer that a numeral in range denotes. -/
def Numeral.machine (numeral : Numeral) : Int64 := Int64.ofInt numeral.value

/-- The first numeral that is out of range. -/
def rejected? : List (Numeral ⊕ String) → Option Numeral
  | [] => none
  | .inl numeral :: rest => if numeral.inRange then rejected? rest else some numeral
  | .inr _ :: rest => rejected? rest

/-- The texts in front of the first numeral that is out of range. -/
def entered : List (Numeral ⊕ String) → List String
  | [] => []
  | .inl numeral :: rest => if numeral.inRange then entered rest else []
  | .inr text :: rest => text :: entered rest

theorem rejected?_eq_none_iff (constants : List (Numeral ⊕ String)) :
    rejected? constants = none ↔ ∀ numeral, .inl numeral ∈ constants → numeral.inRange = true := by
  induction constants with
  | nil => simp [rejected?]
  | cons constant rest ih =>
      cases constant with
      | inr text => simp [rejected?, ih]
      | inl numeral => by_cases range : numeral.inRange = true <;> simp [rejected?, ih, range]

/-- What is rejected is one of the numerals. -/
theorem mem_of_rejected? {constants : List (Numeral ⊕ String)} {numeral : Numeral}
    (rejected : rejected? constants = some numeral) : .inl numeral ∈ constants := by
  induction constants with
  | nil => cases rejected
  | cons constant rest ih =>
      cases constant with
      | inr text => exact List.mem_cons_of_mem _ (ih rejected)
      | inl other =>
          by_cases range : other.inRange = true
          · exact List.mem_cons_of_mem _ (ih (by simpa [rejected?, range] using rejected))
          · obtain rfl : other = numeral := by simpa [rejected?, range] using rejected
            exact List.mem_cons_self

theorem rejected?_append (front rest : List (Numeral ⊕ String)) :
    rejected? (front ++ rest) = (rejected? front).or (rejected? rest) := by
  induction front with
  | nil => rfl
  | cons constant front ih =>
      cases constant with
      | inr text => simp [rejected?, ih]
      | inl numeral => by_cases range : numeral.inRange = true <;> simp [rejected?, ih, range]

/-- What is rejected is out of range and stands behind constants that are taken. -/
theorem rejected?_eq_some_iff (constants : List (Numeral ⊕ String)) (numeral : Numeral) :
    rejected? constants = some numeral ↔ ∃ front back, constants = front ++ .inl numeral :: back ∧
      rejected? front = none ∧ numeral.inRange = false := by
  constructor
  · intro rejected
    induction constants with
    | nil => cases rejected
    | cons constant rest ih =>
        cases constant with
        | inr text =>
            obtain ⟨front, back, rfl, taken, range⟩ := ih rejected
            exact ⟨.inr text :: front, back, rfl, taken, range⟩
        | inl other =>
            cases range : other.inRange with
            | true =>
                obtain ⟨front, back, rfl, taken, range'⟩ :=
                  ih (by simpa [rejected?, range] using rejected)
                refine ⟨.inl other :: front, back, rfl, ?_, range'⟩
                simpa [rejected?, range] using taken
            | false =>
                obtain rfl : other = numeral := by simpa [rejected?, range] using rejected
                exact ⟨[], rest, rfl, rfl, range⟩
  · rintro ⟨front, back, rfl, taken, range⟩
    rw [rejected?_append, taken, Option.none_or, rejected?, range]
    rfl

/-- Once something is rejected, no more texts are entered. -/
theorem entered_append (front rest : List (Numeral ⊕ String)) :
    entered (front ++ rest) =
      entered front ++ if (rejected? front).isNone then entered rest else [] := by
  induction front with
  | nil => rfl
  | cons constant front ih =>
      cases constant with
      | inr text => simp [rejected?, entered, ih]
      | inl numeral =>
          by_cases range : numeral.inRange = true <;> simp [rejected?, entered, ih, range]

/-! ## Runs of an interning -/

namespace Interning

variable {α β γ : Type}

theorem runFrom_bind (first : Interning α) (second : α → Interning β) (table : SymbolTable) :
    (first >>= second).runFrom table =
      match first.runFrom table with
      | (.ok a, table) => (second a).runFrom table
      | (.error numeral, table) => (.error numeral, table) := by
  simp only [runFrom, ExceptT.run_bind, StateT.run_bind]
  rcases StateT.run (ExceptT.run first) table with ⟨_ | _, _⟩ <;> rfl

end Interning

/-- An interning visits the given constants.  The answer may be looked up in the
table at the end, and in every later one. -/
structure Interns {α : Type} (interning : Interning α) (constants : List (Numeral ⊕ String))
    (value : SymbolTable → α) : Prop where
  rejects : ∀ (table : SymbolTable) (numeral : Numeral), rejected? constants = some numeral →
    interning.runFrom table = (.error numeral, table.insertAll (entered constants))
  answers : ∀ table : SymbolTable, rejected? constants = none →
    interning.runFrom table =
      (.ok (value (table.insertAll (entered constants))), table.insertAll (entered constants))
  settled : ∀ (table : SymbolTable) (more : List String), rejected? constants = none →
    value ((table.insertAll (entered constants)).insertAll more) =
      value (table.insertAll (entered constants))

namespace Interns

variable {α β γ : Type} {first : Interning α} {second : Interning β}
  {constants constants' : List (Numeral ⊕ String)} {value : SymbolTable → α}
  {value' : SymbolTable → β}

protected theorem pure (a : α) : Interns (pure a) [] fun _ => a where
  rejects _ _ rejected := by cases rejected
  answers _ _ := rfl
  settled _ _ _ := rfl

theorem map (interns : Interns first constants value) (combine : α → β) :
    Interns (first >>= fun a => pure (combine a)) constants fun table => combine (value table) where
  rejects table numeral rejected := by
    rw [Interning.runFrom_bind, interns.rejects table numeral rejected]
  answers table taken := by
    rw [Interning.runFrom_bind, interns.answers table taken]
    rfl
  settled table more taken := by rw [interns.settled table more taken]

theorem both (interns : Interns first constants value) (interns' : Interns second constants' value')
    (combine : α → β → γ) :
    Interns (first >>= fun a => second >>= fun b => pure (combine a b)) (constants ++ constants')
      fun table => combine (value table) (value' table) where
  rejects table numeral rejected := by
    rw [rejected?_append] at rejected
    rw [Interning.runFrom_bind, entered_append]
    cases stopped : rejected? constants with
    | some numeral' =>
        obtain rfl : numeral' = numeral := by simpa [stopped] using rejected
        rw [interns.rejects table numeral' stopped]
        simp
    | none =>
        rw [stopped, Option.none_or] at rejected
        rw [interns.answers table stopped, Option.isNone_none, if_pos rfl,
          SymbolTable.insertAll_append]
        dsimp only
        rw [Interning.runFrom_bind, interns'.rejects _ numeral rejected]
  answers table taken := by
    obtain ⟨taken, taken'⟩ := Option.or_eq_none_iff.mp ((rejected?_append _ _).symm.trans taken)
    rw [Interning.runFrom_bind, interns.answers table taken, entered_append, taken,
      Option.isNone_none, if_pos rfl, SymbolTable.insertAll_append]
    dsimp only
    rw [Interning.runFrom_bind, interns'.answers _ taken', interns.settled table _ taken]
    rfl
  settled table more taken := by
    obtain ⟨taken, taken'⟩ := Option.or_eq_none_iff.mp ((rejected?_append _ _).symm.trans taken)
    rw [entered_append, taken, Option.isNone_none, if_pos rfl, SymbolTable.insertAll_append,
      interns'.settled _ more taken',
      ← SymbolTable.insertAll_append _ _ more, interns.settled _ _ taken,
      interns.settled _ _ taken]

end Interns

theorem Numeral.interns (numeral : Numeral) :
    Interns numeral.intern [.inl numeral] fun _ => numeral.machine where
  rejects table numeral' rejected := by
    by_cases range : numeral.inRange = true
    · simp [rejected?, range] at rejected
    · obtain rfl : numeral = numeral' := by simpa [rejected?, range] using rejected
      simp only [Numeral.intern, entered, range, Bool.false_eq_true, if_false]
      rfl
  answers table taken := by
    have range := (rejected?_eq_none_iff _).mp taken numeral List.mem_cons_self
    simp only [Numeral.intern, entered, range, if_true]
    rfl
  settled _ _ _ := rfl

theorem interns_internText (text : String) :
    Interns (internText text) [.inr text] fun table => table.symbolOf text where
  rejects _ _ rejected := by cases rejected
  answers table _ := by
    change (Except.ok (table.symbol text).1, (table.symbol text).2) = _
    rw [SymbolTable.symbol_eq]
    rfl
  settled table more _ := SymbolTable.symbolOf_insertAll (SymbolTable.mem_insert table text) more

/-! ## Clauses -/

mutual
theorem Argument.interns : ∀ argument : SpelledArgument,
    Interns (argument.traverse Numeral.intern internText) argument.constants
      fun table => argument.map Numeral.machine table.symbolOf
  | .nil | .variable _ | .unnamed | .counter => Interns.pure _
  | .number numeral => numeral.interns.map Argument.number
  | .string text => (interns_internText text).map Argument.string
  | .aggregate kind none body =>
      (Literal.internsAll body).map fun literals => Argument.aggregate kind none literals
  | .aggregate kind (some target) body =>
      (Argument.interns target).both (Literal.internsAll body) fun target literals =>
        Argument.aggregate kind (some target) literals

theorem Argument.internsAll : ∀ arguments : List SpelledArgument,
    Interns (Argument.traverseAll Numeral.intern internText arguments)
      (Argument.constantsAll arguments)
      fun table => Argument.mapAll Numeral.machine table.symbolOf arguments
  | [] => Interns.pure _
  | argument :: rest => (Argument.interns argument).both (Argument.internsAll rest) List.cons

theorem Literal.interns : ∀ literal : SpelledLiteral,
    Interns (literal.traverse Numeral.intern internText) literal.constants
      fun table => literal.map Numeral.machine table.symbolOf
  | .positive name arguments => (Argument.internsAll arguments).map (Literal.positive name)
  | .negative name arguments => (Argument.internsAll arguments).map (Literal.negative name)
  | .comparison operator left right =>
      (Argument.interns left).both (Argument.interns right) (Literal.comparison operator)
  | .truth _ => Interns.pure _

theorem Literal.internsAll : ∀ body : List SpelledLiteral,
    Interns (Literal.traverseAll Numeral.intern internText body) (Literal.constantsAll body)
      fun table => Literal.mapAll Numeral.machine table.symbolOf body
  | [] => Interns.pure _
  | literal :: rest => (Literal.interns literal).both (Literal.internsAll rest) List.cons
end

/-- **Interning a clause visits its constants.** -/
theorem Clause.interns (clause : SpelledClause) :
    Interns clause.intern clause.constants
      fun table => clause.map Numeral.machine table.symbolOf :=
  ((Argument.internsAll clause.head.arguments).map (Atom.mk clause.head.name)).both
    (Literal.internsAll clause.body) Clause.mk

/-- Whether every numeral of a clause denotes a machine integer. -/
def Clause.inRange (clause : SpelledClause) : Bool := (rejected? clause.constants).isNone

/-- What a clause stands for once its numerals are machine integers. -/
def Clause.denoted (clause : SpelledClause) : Clause Int64 String := clause.map Numeral.machine id

/-- A clause whose numerals are in range is interned, and says what it said. -/
theorem Clause.intern_of_inRange {clause : SpelledClause} (range : clause.inRange = true)
    (table : SymbolTable) :
    ∃ interned final, clause.intern.runFrom table = (.ok interned, final) ∧
      interned.content = clause.denoted ∧ final.key = table.key ∧
      ∀ symbol, .inr symbol ∈ interned.constants → symbol.table = table.key := by
  have taken : rejected? clause.constants = none := by simpa [Clause.inRange] using range
  refine ⟨_, _, clause.interns.answers table taken, ?_, SymbolTable.key_insertAll _ _, ?_⟩
  · rw [Clause.content, Clause.map_map]
    rfl
  · intro symbol member
    rw [Clause.constants_map, List.mem_map] at member
    obtain ⟨constant, -, same⟩ := member
    cases constant with
    | inl numeral => cases same
    | inr text =>
        cases same
        exact SymbolTable.key_insertAll table (entered clause.constants)

/-- A clause with a numeral out of range is not interned. -/
theorem Clause.intern_of_not_inRange {clause : SpelledClause} (range : clause.inRange = false)
    (table : SymbolTable) :
    ∃ numeral final, clause.intern.runFrom table = (.error numeral, final) ∧
      .inl numeral ∈ clause.constants ∧ final.key = table.key := by
  have stopped : (rejected? clause.constants).isSome = true := by
    simpa [Clause.inRange] using range
  obtain ⟨numeral, rejected⟩ := Option.isSome_iff_exists.mp stopped
  exact ⟨numeral, _, clause.interns.rejects table numeral rejected, mem_of_rejected? rejected,
    SymbolTable.key_insertAll _ _⟩

/-- The numeral that stops the interning of a clause stands in the clause. -/
theorem Clause.mem_of_intern_error {clause : SpelledClause} {table final : SymbolTable}
    {numeral : Numeral} (stopped : clause.intern.runFrom table = (.error numeral, final)) :
    .inl numeral ∈ clause.constants := by
  cases range : clause.inRange with
  | true =>
      obtain ⟨interned, final', run, -⟩ := Clause.intern_of_inRange range table
      rw [run] at stopped
      cases stopped
  | false =>
      obtain ⟨numeral', final', run, member, -⟩ := Clause.intern_of_not_inRange range table
      rw [run] at stopped
      cases stopped
      exact member

end Datalog
