import Datalog.Proofs.Interning
import Datalog.Proofs.Tree.Equality
import Datalog.Symbol.Store
import Mathlib.Data.List.Nodup

/-!
# Symbols that a store has issued

A store has issued a symbol if the table that the symbol names resolves the number
of the symbol to its text.  A table enters no text twice, so of two such symbols
of one table the numbers are equal exactly if the texts are
(`SymbolStore.Issued.id_eq_iff_text_eq`), and the comparison of symbols, which
looks at the numbers within a table and at the texts across tables, is the
comparison of texts throughout (`SymbolStore.Issued.beq_iff`).

A symbol stays issued while tables are opened and texts are entered
(`SymbolStore.Extends.issued`).
-/

set_option autoImplicit false

namespace Datalog

/-- Of two numbers of a table, equal ones have equal texts and the other way round. -/
theorem SymbolTable.resolve?_inj {table : SymbolTable} {id id' : Nat} {text text' : String}
    (resolved : table.resolve? id = some text) (resolved' : table.resolve? id' = some text') :
    id = id' ↔ text = text' := by
  constructor
  · intro same
    subst same
    exact Option.some.inj (resolved.symm.trans resolved')
  · intro same
    subst same
    obtain ⟨bound, -⟩ := List.getElem?_eq_some_iff.mp resolved
    exact (List.getElem?_inj bound table.distinct).mp (resolved.trans resolved'.symm)

/-- The texts of a table stay in front of those that are entered later. -/
theorem SymbolTable.prefix_insertAll (table : SymbolTable) (texts : List String) :
    table.texts <+: (table.insertAll texts).texts := by
  induction texts generalizing table with
  | nil => exact List.prefix_rfl
  | cons text texts ih =>
      refine List.IsPrefix.trans ?_ (ih (table.insert text))
      rw [texts_insert]
      split
      · exact List.prefix_rfl
      · exact List.prefix_append _ _

/-- A number stays valid while its table grows. -/
theorem SymbolTable.resolve?_of_prefix {table table' : SymbolTable}
    (grown : table.texts <+: table'.texts) {id : Nat} {text : String}
    (resolved : table.resolve? id = some text) : table'.resolve? id = some text := by
  obtain ⟨more, same⟩ := grown
  obtain ⟨bound, -⟩ := List.getElem?_eq_some_iff.mp resolved
  rw [resolve?, ← same, List.getElem?_append_left bound]
  exact resolved

namespace SymbolStore

/-! ## Issued symbols -/

/-- The table that a symbol names resolves its number to its text. -/
def Issued (store : SymbolStore) (symbol : Symbol) : Prop :=
  ∃ table, store.tableOf? symbol = some table ∧ table.resolve? symbol.id = some symbol.text

/-- The symbols among some constants are issued. -/
def Issues (store : SymbolStore) (constants : List (Int64 ⊕ Symbol)) : Prop :=
  ∀ symbol, .inr symbol ∈ constants → store.Issued symbol

variable {store : SymbolStore} {symbol symbol' : Symbol}

/-- **Within a table numbers tell symbols apart as texts do.** -/
theorem Issued.id_eq_iff_text_eq (issued : store.Issued symbol) (issued' : store.Issued symbol')
    (together : symbol.table = symbol'.table) :
    symbol.id = symbol'.id ↔ symbol.text = symbol'.text := by
  obtain ⟨table, found, resolved⟩ := issued
  obtain ⟨table', found', resolved'⟩ := issued'
  rw [tableOf?, together] at found
  obtain rfl : table = table' := Option.some.inj (found.symm.trans found')
  exact SymbolTable.resolve?_inj resolved resolved'

/-- **Issued symbols are equal exactly if their texts are**, in whatever tables
they have been numbered. -/
theorem Issued.beq_iff (issued : store.Issued symbol) (issued' : store.Issued symbol') :
    (symbol == symbol') = true ↔ symbol.text = symbol'.text := by
  by_cases together : symbol.table = symbol'.table
  · rw [← issued.id_eq_iff_text_eq issued' together]
    exact Symbol.beq_iff_of_table_eq together
  · exact Symbol.beq_iff_of_table_ne together

theorem Issues.agree {constants constants' : List (Int64 ⊕ Symbol)}
    (issues : store.Issues constants) (issues' : store.Issues constants') :
    Agree constants constants' := by
  intro symbol symbol' member member'
  exact (issues symbol member).beq_iff (issues' symbol' member')

/-! ## Stores that grow -/

/-- Every table of the one store is still there in the other, with its texts in
front of those that have been entered since. -/
def Extends (store store' : SymbolStore) : Prop :=
  ∀ (key : Nat) (table : SymbolTable), store.tables[key]? = some table →
    ∃ table', store'.tables[key]? = some table' ∧ table.texts <+: table'.texts

/-- **What has been issued stays issued.** -/
theorem Extends.issued {store' : SymbolStore} (extended : store.Extends store')
    (issued : store.Issued symbol) : store'.Issued symbol := by
  obtain ⟨table, found, resolved⟩ := issued
  obtain ⟨table', found', grown⟩ := extended _ _ found
  exact ⟨table', found', SymbolTable.resolve?_of_prefix grown resolved⟩

theorem Extends.refl (store : SymbolStore) : store.Extends store :=
  fun _ table found => ⟨table, found, List.prefix_rfl⟩

theorem extends_openTable (store : SymbolStore) : store.Extends store.openTable := by
  intro key table found
  obtain ⟨bound, -⟩ := List.getElem?_eq_some_iff.mp found
  exact ⟨table, (List.getElem?_append_left bound).trans found, List.prefix_rfl⟩

/-- Of the tables behind an opened one, the new one is empty under its own key. -/
theorem table_of_openTable {key : Nat} {table : SymbolTable}
    (found : store.openTable.tables[key]? = some table) :
    store.tables[key]? = some table ∨ table = .empty key := by
  rw [openTable, List.getElem?_append] at found
  split at found
  next => exact .inl found
  next behind =>
    right
    obtain ⟨place, same⟩ := List.getElem?_eq_some_iff.mp found
    rw [List.length_singleton] at place
    rw [← same, List.getElem_singleton]
    congr 1
    omega

/-- A clone brings no table of its own. -/
theorem tables_clone (store : SymbolStore) (handle : Nat) :
    (store.clone handle).tables = store.tables := by
  unfold clone
  split <;> rfl

theorem extends_clone (store : SymbolStore) (handle : Nat) :
    store.Extends (store.clone handle) := by
  rw [Extends, tables_clone]
  exact Extends.refl store

/-- Handing out a symbol enters its text in the table behind the handle. -/
theorem symbol?_eq_some {store' : SymbolStore} {handle : Nat} {text : String}
    (interned : store.symbol? handle text = some (symbol, store')) :
    ∃ key table, store.handles[handle]? = some key ∧ store.tables[key]? = some table ∧
      symbol = (table.insert text).symbolOf text ∧
      store' = { store with tables := store.tables.set key (table.insert text) } := by
  rw [SymbolStore.symbol?, Option.bind_eq_bind, Option.bind_eq_some_iff] at interned
  obtain ⟨key, reached, interned⟩ := interned
  obtain ⟨table, found, interned⟩ := Option.bind_eq_some_iff.mp interned
  rw [SymbolTable.symbol_eq] at interned
  cases interned
  exact ⟨key, table, reached, found, rfl, rfl⟩

/-- A store is extended by entering texts in one of its tables. -/
theorem extends_set {key : Nat} {table : SymbolTable} (found : store.tables[key]? = some table)
    (texts : List String) :
    store.Extends { store with tables := store.tables.set key (table.insertAll texts) } := by
  intro other table' found'
  by_cases same : key = other
  · subst same
    obtain rfl : table = table' := Option.some.inj (found.symm.trans found')
    obtain ⟨bound, -⟩ := List.getElem?_eq_some_iff.mp found
    exact ⟨_, List.getElem?_set_self bound, table.prefix_insertAll texts⟩
  · exact ⟨table', (List.getElem?_set_ne same).trans found', List.prefix_rfl⟩

end SymbolStore

end Datalog
