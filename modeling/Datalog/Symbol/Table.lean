/-!
# Symbol tables

A symbol table numbers the texts that it has seen, from zero and in the order in
which they came.  A text keeps its number for good, because a table only grows
at its end, and it has one number only, because no text is entered twice.

A symbol is a numbered text together with the table that numbered it.  Within
one table the numbers decide whether two symbols are equal; across tables, whose
numbers have nothing to do with each other, the texts decide.
-/

set_option autoImplicit false

namespace Datalog

/-- The texts that a table has numbered, the text with number zero first.  The
key tells tables apart that hold the same texts. -/
structure SymbolTable where
  key : Nat
  texts : List String
  distinct : texts.Nodup
deriving Repr

/-- A numbered text and the key of the table that numbered it. -/
structure Symbol where
  table : Nat
  id : Nat
  text : String
deriving DecidableEq, Repr, Inhabited

/-- Symbols of one table are compared by number, others by text. -/
instance : BEq Symbol :=
  ⟨fun left right =>
    if left.table = right.table then left.id == right.id else left.text == right.text⟩

namespace SymbolTable

/-- The table with the given key that has not seen any text. -/
def empty (key : Nat) : SymbolTable where
  key := key
  texts := []
  distinct := List.nodup_nil

/-- The table in which a text has a number. -/
def insert (table : SymbolTable) (text : String) : SymbolTable :=
  if absent : text ∈ table.texts then table
  else
    { table with
      texts := table.texts ++ [text]
      distinct := by
        rw [List.nodup_append]
        refine ⟨table.distinct, by simp, ?_⟩
        intro old member new last same
        rw [List.mem_singleton] at last
        exact absent (last ▸ same ▸ member) }

/-- The number of a text, which is entered behind the others if it is new. -/
def intern (table : SymbolTable) (text : String) : Nat × SymbolTable :=
  (table.texts.idxOf text, table.insert text)

/-- The symbol of a text, which is entered behind the others if it is new. -/
def symbol (table : SymbolTable) (text : String) : Symbol × SymbolTable :=
  let (id, table) := table.intern text
  (⟨table.key, id, text⟩, table)

/-- The table in which each of the texts has a number. -/
def insertAll (table : SymbolTable) (texts : List String) : SymbolTable :=
  texts.foldl insert table

/-- The text that has the given number. -/
def resolve? (table : SymbolTable) (id : Nat) : Option String := table.texts[id]?

/-- Whether a text has a number. -/
def contains (table : SymbolTable) (text : String) : Bool := table.texts.contains text

/-- How many texts have numbers. -/
def size (table : SymbolTable) : Nat := table.texts.length

/-- Whether no text has a number. -/
def isEmpty (table : SymbolTable) : Bool := table.texts.isEmpty

/-- A table grows only at its end. -/
theorem texts_insert (table : SymbolTable) (text : String) :
    (table.insert text).texts =
      if text ∈ table.texts then table.texts else table.texts ++ [text] := by
  unfold insert
  split <;> rfl

theorem key_insert (table : SymbolTable) (text : String) :
    (table.insert text).key = table.key := by
  unfold insert
  split <;> rfl

end SymbolTable

end Datalog
