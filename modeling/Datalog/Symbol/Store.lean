import Datalog.Symbol.Table
import Datalog.Text.Decimal
import Datalog.Text.Quoted
import Datalog.Text.Shown

/-!
# Symbol tables behind handles

Tables are shared: whoever holds a handle on a table sees what is entered
through any other handle on it.  A store keeps the tables and the handles that
have been given out.  Opening a table gives a handle on a new table, and cloning
a handle gives another one on the same table.
-/

set_option autoImplicit false

namespace Datalog

/-- The tables, the one with key zero first, and for each handle that has been
given out the key of the table that it reaches. -/
structure SymbolStore where
  tables : List SymbolTable := []
  handles : List Nat := []
deriving Repr, Inhabited

namespace SymbolStore

/-- The store with a new table and a handle on it, the last one. -/
def openTable (store : SymbolStore) : SymbolStore where
  tables := store.tables ++ [.empty store.tables.length]
  handles := store.handles ++ [store.tables.length]

/-- The store with another handle, the last one, on the table behind a handle. -/
def clone (store : SymbolStore) (handle : Nat) : SymbolStore :=
  match store.handles[handle]? with
  | some key => { store with handles := store.handles ++ [key] }
  | none => store

/-- The table behind a handle. -/
def table? (store : SymbolStore) (handle : Nat) : Option SymbolTable := do
  let key ← store.handles[handle]?
  store.tables[key]?

/-- Interns a text in the table behind a handle. -/
def symbol? (store : SymbolStore) (handle : Nat) (text : String) :
    Option (Symbol × SymbolStore) := do
  let key ← store.handles[handle]?
  let table ← store.tables[key]?
  let (symbol, table) := table.symbol text
  return (symbol, { store with tables := store.tables.set key table })

/-- The text that has the given number in the table behind a handle. -/
def resolve? (store : SymbolStore) (handle id : Nat) : Option String := do
  (← store.table? handle).resolve? id

/-- The table that numbered a symbol, as it is now. -/
def tableOf? (store : SymbolStore) (symbol : Symbol) : Option SymbolTable :=
  store.tables[symbol.table]?

/-- The number of texts behind each handle. -/
def sizes (store : SymbolStore) : List Nat :=
  store.handles.filterMap fun key => store.tables[key]?.map SymbolTable.size

end SymbolStore

/-! ## Symbols and tables as text -/

/-- A symbol as a string constant. -/
def Symbol.render (symbol : Symbol) : String :=
  String.ofList (Text.quote symbol.text.toList)

/-- A symbol as it is shown for inspection, with its number. -/
def Symbol.inspect (symbol : Symbol) : String :=
  String.ofList (Text.shown symbol.text.toList) ++ "#" ++ Text.natural symbol.id

/-- A table as it is shown for inspection, with the number of its texts. -/
def SymbolTable.inspect (table : SymbolTable) : String :=
  "SymbolTable \x7b len: " ++ Text.natural table.size ++ " \x7d"

end Datalog
