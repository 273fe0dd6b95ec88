import Datalog.Proofs.Program.Content
import Datalog.Proofs.Program.Operations
import Datalog.Proofs.TranslationUnit.Symbols

/-!
# Programs that live side by side

A workspace is what a user of the library may have in hand: symbol tables behind
handles, symbols that have been handed out, and programs.  Its steps open and clone
tables, intern texts, read clauses and whole texts, copy programs, and operate on
them with clauses that are built from symbols at hand (`Workspace.Step`).

In every workspace that can be reached the symbols at hand are issued by the store
(`Workspace.Reachable.sound`).  So equality of arguments, literals and clauses is
equality of what they say, whatever the tables are and in whatever order texts came
into them, and programs are equal exactly if they have the same content
(`Workspace.Reachable.equality_is_content`).
-/

set_option autoImplicit false

namespace Datalog

open Program (Operation stringClause)

/-! ## Symbols of clauses -/

/-- The symbols in a clause. -/
def Clause.symbols (clause : InternedClause) : List Symbol :=
  clause.constants.filterMap Sum.getRight?

theorem Clause.mem_symbols {clause : InternedClause} {symbol : Symbol} :
    symbol ∈ clause.symbols ↔ .inr symbol ∈ clause.constants := by
  rw [Clause.symbols, List.mem_filterMap]
  constructor
  · rintro ⟨constant, member, same⟩
    rwa [← Sum.getRight?_eq_some_iff.mp same]
  · intro member
    exact ⟨.inr symbol, member, rfl⟩

/-- A table numbers the symbols in clauses if it numbers those among their constants. -/
theorem Clause.numbers_symbols {table : SymbolTable} {clauses : List InternedClause}
    (numbers : ∀ clause ∈ clauses, table.Numbers clause.constants) :
    table.Numbers ((clauses.flatMap Clause.symbols).map .inr) := by
  intro symbol member
  obtain ⟨_, occurs, same⟩ := List.mem_map.mp member
  obtain ⟨clause, held, inside⟩ := List.mem_flatMap.mp occurs
  rw [Sum.inr.inj same] at inside
  exact numbers clause held symbol (Clause.mem_symbols.mp inside)

/-! ## Workspaces -/

/-- Tables, symbols that have been handed out, and programs. -/
structure Workspace where
  store : SymbolStore := {}
  symbols : List Symbol := []
  programs : List Program := []

/-- A store with one of its tables replaced. -/
def SymbolStore.replace (store : SymbolStore) (key : Nat) (table : SymbolTable) : SymbolStore :=
  { store with tables := store.tables.set key table }

namespace Workspace

/-- The symbols among some constants have been handed out. -/
def Knows (workspace : Workspace) (constants : List (Int64 ⊕ Symbol)) : Prop :=
  ∀ symbol, .inr symbol ∈ constants → symbol ∈ workspace.symbols

/-- What can be done in a workspace. -/
inductive Step (workspace : Workspace) : Workspace → Prop where
  | openTable : Step workspace { workspace with store := workspace.store.openTable }
  | cloneTable (handle : Nat) :
      Step workspace { workspace with store := workspace.store.clone handle }
  | intern {handle : Nat} {text : String} {symbol : Symbol} {store : SymbolStore}
      (interned : workspace.store.symbol? handle text = some (symbol, store)) :
      Step workspace
        { workspace with store := store, symbols := symbol :: workspace.symbols }
  | readClause {handle key : Nat} {table : SymbolTable} (code : List Char)
      (reached : workspace.store.handles[handle]? = some key)
      (found : workspace.store.tables[key]? = some table) :
      Step workspace
        { workspace with
          store := workspace.store.replace key (parseClause code table).2
          symbols := (parseClause code table).1.toOption.toList.flatMap Clause.symbols ++
            workspace.symbols }
  | readText {handle key : Nat} {table : SymbolTable} {unit : TranslationUnit} (code : List Char)
      (report : ErrorReport) (debug : DebugReport)
      (reached : workspace.store.handles[handle]? = some key)
      (found : workspace.store.tables[key]? = some table)
      (read : TranslationUnit.ofText code table report debug = unit) :
      Step workspace
        { store := workspace.store.replace key unit.symbols
          symbols := unit.program.clauseList.flatMap Clause.symbols ++ workspace.symbols
          programs := workspace.programs ++ [unit.program] }
  | create : Step workspace { workspace with programs := workspace.programs ++ [.empty] }
  | copy {program : Program} (listed : program ∈ workspace.programs) :
      Step workspace { workspace with programs := workspace.programs ++ [program] }
  | operate {place : Nat} {program : Program} {operation : Operation}
      (listed : workspace.programs[place]? = some program)
      (built : workspace.Knows operation.constants) :
      Step workspace
        { workspace with
          programs := workspace.programs.set place (program.perform operation).2 }

/-- The workspaces that come about step by step. -/
inductive Reachable : Workspace → Prop where
  | start : Reachable {}
  | step {workspace next : Workspace} (reachable : Reachable workspace)
      (step : Step workspace next) : Reachable next

/-! ## What every step keeps -/

/-- The tables stand under their own keys, the symbols at hand are issued, and the
programs are built from them. -/
structure Sound (workspace : Workspace) : Prop where
  keyed : ∀ (key : Nat) (table : SymbolTable),
    workspace.store.tables[key]? = some table → table.key = key
  issued : ∀ symbol ∈ workspace.symbols, workspace.store.Issued symbol
  built : ∀ program ∈ workspace.programs, ∀ clause ∈ program.clauseList,
    workspace.Knows clause.constants

variable {workspace next : Workspace}

/-- The same symbols are at hand, and possibly more. -/
theorem Knows.mono {constants : List (Int64 ⊕ Symbol)} (knows : workspace.Knows constants)
    (more : workspace.symbols ⊆ next.symbols) : next.Knows constants :=
  fun symbol member => more (knows symbol member)

/-- Texts can be entered in a table, and symbols taken in hand that it has numbered. -/
theorem Sound.enter (sound : workspace.Sound) {key : Nat} {table : SymbolTable}
    (found : workspace.store.tables[key]? = some table) (texts : List String)
    {symbols : List Symbol}
    (numbers : (table.insertAll texts).Numbers (symbols.map .inr)) :
    Sound { workspace with
      store := workspace.store.replace key (table.insertAll texts)
      symbols := symbols ++ workspace.symbols } := by
  have own := sound.keyed key table found
  obtain ⟨bound, -⟩ := List.getElem?_eq_some_iff.mp found
  refine ⟨fun other table' found' => ?_, fun symbol member => ?_, fun program listed clause held =>
    (sound.built program listed clause held).mono (List.subset_append_right _ _)⟩
  · by_cases same : key = other
    · subst same
      rw [SymbolStore.replace, List.getElem?_set_self bound] at found'
      obtain rfl := Option.some.inj found'
      exact (SymbolTable.key_insertAll table texts).trans own
    · rw [SymbolStore.replace, List.getElem?_set_ne same] at found'
      exact sound.keyed other table' found'
  · rcases List.mem_append.mp member with new | old
    · obtain ⟨numbered, resolved⟩ := numbers symbol (List.mem_map_of_mem new)
      refine ⟨table.insertAll texts, ?_, resolved⟩
      rw [SymbolStore.tableOf?, numbered, SymbolTable.key_insertAll, own, SymbolStore.replace]
      exact List.getElem?_set_self bound
    · exact (SymbolStore.extends_set found texts).issued (sound.issued symbol old)

/-- A program that is built from symbols at hand can be put to the others. -/
theorem Sound.append_program (sound : workspace.Sound) {program : Program}
    (built : ∀ clause ∈ program.clauseList, workspace.Knows clause.constants) :
    Sound { workspace with programs := workspace.programs ++ [program] } := by
  refine ⟨sound.keyed, sound.issued, fun other listed => ?_⟩
  rcases List.mem_append.mp listed with old | last
  · exact sound.built other old
  · rw [List.mem_singleton.mp last]
    exact built

/-- **Every step keeps a workspace sound.** -/
theorem Sound.step (sound : workspace.Sound) (step : workspace.Step next) : next.Sound := by
  cases step with
  | openTable =>
      refine ⟨fun key table found => ?_, fun symbol member => ?_, sound.built⟩
      · rcases SymbolStore.table_of_openTable found with old | rfl
        · exact sound.keyed key table old
        · rfl
      · exact (SymbolStore.extends_openTable _).issued (sound.issued symbol member)
  | cloneTable handle =>
      refine ⟨fun key table found => ?_, fun symbol member => ?_, sound.built⟩
      · rw [SymbolStore.tables_clone] at found
        exact sound.keyed key table found
      · exact (SymbolStore.extends_clone _ handle).issued (sound.issued symbol member)
  | @intern handle text symbol store interned =>
      obtain ⟨key, table, -, found, rfl, rfl⟩ := SymbolStore.symbol?_eq_some interned
      have numbers : (table.insertAll [text]).Numbers
          ([(table.insert text).symbolOf text].map .inr) := by
        intro symbol single
        obtain rfl := Sum.inr.inj (List.mem_singleton.mp single)
        exact ⟨rfl, SymbolTable.resolve?_symbolOf (table.mem_insert text)⟩
      exact sound.enter found [text] numbers
  | @readClause handle key table code reached found =>
      obtain ⟨⟨texts, grown⟩, numbers⟩ := parseClause_numbered code table
      rw [grown] at numbers ⊢
      refine sound.enter found texts (Clause.numbers_symbols fun clause answered => ?_)
      refine numbers clause ?_
      cases answer : (parseClause code table).1 with
      | error fault => simp [answer, Except.toOption] at answered
      | ok clause' => simpa [answer, Except.toOption, eq_comm] using answered
  | @readText handle key table unit code report debug reached found read =>
      have grown : unit.symbols = _ := read ▸ TranslationUnit.ofText_symbols code table report debug
      have numbers : unit.Numbered := read ▸ TranslationUnit.ofText_numbered code table report debug
      rw [TranslationUnit.Numbered, grown] at numbers
      rw [grown]
      refine (sound.enter found _ (Clause.numbers_symbols numbers)).append_program ?_
      intro clause held symbol occurs
      refine List.mem_append_left _ (List.mem_flatMap.mpr ⟨clause, held, ?_⟩)
      exact Clause.mem_symbols.mpr occurs
  | create => exact sound.append_program fun _ member => by cases member
  | copy listed => exact sound.append_program (sound.built _ listed)
  | @operate place before operation found built =>
      refine ⟨sound.keyed, sound.issued, fun program listed clause member => ?_⟩
      rcases List.mem_or_eq_of_mem_set listed with listed | rfl
      · exact sound.built program listed clause member
      · have held := sound.built before (List.mem_of_getElem? found)
        exact Program.forall_constants_perform held built clause member

theorem Reachable.sound (reachable : workspace.Reachable) : workspace.Sound := by
  induction reachable with
  | start =>
      refine ⟨fun key table found => ?_, fun symbol member => ?_, fun program listed => ?_⟩
      · cases found
      · cases member
      · cases listed
  | step _ step sound => exact sound.step step

/-! ## Equality -/

theorem Sound.issues (sound : workspace.Sound) {constants : List (Int64 ⊕ Symbol)}
    (knows : workspace.Knows constants) : workspace.store.Issues constants :=
  fun symbol member => sound.issued symbol (knows symbol member)

theorem Sound.agree (sound : workspace.Sound) {constants constants' : List (Int64 ⊕ Symbol)}
    (knows : workspace.Knows constants) (knows' : workspace.Knows constants') :
    Agree constants constants' :=
  (sound.issues knows).agree (sound.issues knows')

theorem Sound.program_beq_iff (sound : workspace.Sound) {left right : Program}
    (listed : left ∈ workspace.programs) (listed' : right ∈ workspace.programs) :
    (left == right) = true ↔ left.SameContent right :=
  Program.beq_iff_sameContent fun clause member clause' member' =>
    sound.agree (sound.built left listed clause member) (sound.built right listed' clause' member')

/-- **Equality is equality of content** in every workspace that can be reached.
Programs are equal exactly if they declare the same names, equal names alike, and
hold the same clauses in order, as texts.  Equality of arguments, literals, clauses
and programs is an equivalence, and within a table numbers compare as texts do. -/
theorem Reachable.equality_is_content (reachable : workspace.Reachable) :
    (∀ left ∈ workspace.programs, ∀ right ∈ workspace.programs,
      ((left == right) = true ↔ left.SameContent right)) ∧
    (Equivalence fun left right : {argument : Argument Int64 Symbol //
      workspace.Knows argument.constants} => (left.1 == right.1) = true) ∧
    (Equivalence fun left right : {literal : Literal Int64 Symbol //
      workspace.Knows literal.constants} => (left.1 == right.1) = true) ∧
    (Equivalence fun left right : {clause : InternedClause //
      workspace.Knows clause.constants} => (left.1 == right.1) = true) ∧
    (Equivalence fun left right : {program : Program // program ∈ workspace.programs} =>
      (left.1 == right.1) = true) ∧
    ∀ symbol ∈ workspace.symbols, ∀ symbol' ∈ workspace.symbols,
      symbol.table = symbol'.table → (symbol.id = symbol'.id ↔ symbol.text = symbol'.text) := by
  have sound := reachable.sound
  refine ⟨fun left listed right listed' => sound.program_beq_iff listed listed', ?_, ?_, ?_, ?_, ?_⟩
  · exact equivalence_of_beq_iff fun left right knows knows' =>
      Argument.beq_iff left right (sound.agree knows knows')
  · exact equivalence_of_beq_iff fun left right knows knows' =>
      Literal.beq_iff left right (sound.agree knows knows')
  · exact equivalence_of_beq_iff fun left right knows knows' =>
      Clause.beq_iff_content (sound.agree knows knows')
  · refine ⟨fun program => ?_, fun {left right} same => ?_,
      fun {left middle right} same same' => ?_⟩
    · exact (sound.program_beq_iff program.2 program.2).mpr (.refl program.1)
    · exact (sound.program_beq_iff right.2 left.2).mpr
        ((sound.program_beq_iff left.2 right.2).mp same).symm
    · exact (sound.program_beq_iff left.2 right.2).mpr
        (((sound.program_beq_iff left.2 middle.2).mp same).trans
          ((sound.program_beq_iff middle.2 right.2).mp same'))
  · intro symbol known symbol' known' together
    exact (sound.issued symbol known).id_eq_iff_text_eq (sound.issued symbol' known') together

/-- Two tables that have numbered one text differently, a clone of the first, and
two programs that hold this text. -/
def twoTables : Workspace where
  store :=
    ⟨[(SymbolTable.empty 0).insertAll ["a"], (SymbolTable.empty 1).insertAll ["b", "a"]], [0, 1, 0]⟩
  symbols := [⟨0, 0, "a"⟩, ⟨1, 1, "a"⟩, ⟨1, 0, "b"⟩]
  programs :=
    [(Program.empty.appendClause (stringClause ⟨0, 0, "a"⟩)).2,
      (Program.empty.appendClause (stringClause ⟨1, 1, "a"⟩)).2]

theorem twoTables_reachable : twoTables.Reachable := by
  have opened : Reachable ⟨⟨[.empty 0, .empty 1], [0, 1, 0]⟩, [], []⟩ :=
    ((Reachable.start.step .openTable).step .openTable).step (.cloneTable 0)
  have other : Reachable ⟨⟨[.empty 0, (SymbolTable.empty 1).insertAll ["b"]], [0, 1, 0]⟩,
      [⟨1, 0, "b"⟩], []⟩ :=
    opened.step (@Step.intern _ 1 "b" _ _ rfl)
  have again : Reachable ⟨⟨[.empty 0, (SymbolTable.empty 1).insertAll ["b", "a"]], [0, 1, 0]⟩,
      [⟨1, 1, "a"⟩, ⟨1, 0, "b"⟩], []⟩ :=
    other.step (@Step.intern _ 1 "a" _ _ rfl)
  have cloned : Reachable { twoTables with programs := [] } :=
    again.step (@Step.intern _ 2 "a" _ _ rfl)
  have created : Reachable { twoTables with programs := [.empty, .empty] } :=
    (cloned.step .create).step .create
  have knows (symbol : Symbol) (listed : symbol ∈ twoTables.symbols) :
      twoTables.Knows (Operation.appendClause (stringClause symbol)).constants := by
    simpa [Knows, stringClause, Operation.constants, Clause.constants, Argument.constantsAll,
      Argument.constants, Literal.constantsAll] using listed
  have first := created.step
    (@Step.operate _ 0 _ (.appendClause (stringClause ⟨0, 0, "a"⟩)) rfl
      (knows _ (by simp [twoTables])))
  exact first.step
    (@Step.operate _ 1 _ (.appendClause (stringClause ⟨1, 1, "a"⟩)) rfl
      (knows _ (by simp [twoTables])))

theorem equality_is_content_across_tables :
    twoTables.Reachable ∧
      Program.SameContent (Program.empty.appendClause (stringClause ⟨0, 0, "a"⟩)).2
        (Program.empty.appendClause (stringClause ⟨1, 1, "a"⟩)).2 := by
  have equal := (Reachable.equality_is_content twoTables_reachable).1
    _ (List.mem_cons_self) _ (List.mem_cons_of_mem _ List.mem_cons_self)
  exact ⟨twoTables_reachable, equal.mp (by decide +kernel)⟩

end Workspace

end Datalog
