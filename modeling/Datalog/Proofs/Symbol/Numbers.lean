import Datalog.Proofs.Symbol.Issued
import Datalog.Proofs.TranslationUnit.Symbols

/-!
# Numbers and the tables that issued them

In every run of a store a table resolves exactly the numbers that were handed out
through the handles on it, and resolves them to the texts that were interned under them
(`SymbolStore.Run.accounts`).  A number that it has never issued is refused.

A number is no more than a number, though: it does not say which table it came from.
Every table counts from zero, so a number from another table is refused only until the
table has issued the same number itself; from then on it is resolved to a text that has
nothing to do with it.  So a handle tells the numbers of its table from those of others
only where there is nothing to tell apart, because all numbers that are out came from its
table or none did (`SymbolStore.Run.discerns_numbers_iff`).
-/

set_option autoImplicit false

namespace Datalog

/-- A table that a text comes into numbers what it did before, and the text. -/
theorem SymbolTable.resolve?_insert_iff (table : SymbolTable) (text : String) {id : Nat}
    {other : String} :
    (table.insert text).resolve? id = some other ↔
      table.resolve? id = some other ∨
        id = ((table.insert text).symbolOf text).id ∧ other = text := by
  have own : (table.insert text).resolve? ((table.insert text).symbolOf text).id = some text :=
    resolve?_symbolOf (table.mem_insert text)
  constructor
  · intro resolved
    by_cases same : other = text
    · exact .inr ⟨(resolve?_inj resolved own).mpr same, same⟩
    · left
      rw [resolve?, texts_insert] at resolved
      split at resolved
      next => exact resolved
      next =>
        obtain ⟨bound, found⟩ := List.getElem?_eq_some_iff.mp resolved
        rcases Nat.lt_or_ge id table.texts.length with before | behind
        · rwa [List.getElem?_append_left before] at resolved
        · rw [List.getElem_append_right behind, List.getElem_singleton] at found
          exact absurd found.symm same
  · rintro (resolved | ⟨rfl, rfl⟩)
    · exact resolve?_of_prefix (table.prefix_insertAll [text]) resolved
    · exact own

namespace SymbolStore

/-! ## Runs -/

/-- A number that has been handed out, the handle through which it was, and the text
that was interned under it. -/
structure Handout where
  handle : Nat
  text : String
  id : Nat

/-- What comes about by opening and cloning tables and by interning texts: a store, and
what it has handed out, the last number first. -/
inductive Run : SymbolStore → List Handout → Prop where
  | start : Run {} []
  | openTable {store : SymbolStore} {handouts : List Handout} (run : Run store handouts) :
      Run store.openTable handouts
  | clone {store : SymbolStore} {handouts : List Handout} (handle : Nat)
      (run : Run store handouts) : Run (store.clone handle) handouts
  | intern {store next : SymbolStore} {handouts : List Handout} {handle : Nat} {text : String}
      {symbol : Symbol} (run : Run store handouts)
      (interned : store.symbol? handle text = some (symbol, next)) :
      Run next (⟨handle, text, symbol.id⟩ :: handouts)

/-- Two handles reach the same table. -/
def Shares (store : SymbolStore) (handle handle' : Nat) : Prop :=
  ∃ key, store.handles[handle]? = some key ∧ store.handles[handle']? = some key

/-- The table with the given key has numbered a text. -/
def Numbered (store : SymbolStore) (key id : Nat) (text : String) : Prop :=
  ∃ table, store.tables[key]? = some table ∧ table.resolve? id = some text

variable {store next : SymbolStore} {handouts : List Handout}

/-- A number is resolved through a handle by the table that the handle reaches. -/
theorem resolve?_eq_some_iff {handle id : Nat} {text : String} :
    store.resolve? handle id = some text ↔
      ∃ key, store.handles[handle]? = some key ∧ store.Numbered key id text := by
  simp only [resolve?, table?, Numbered, Option.bind_eq_bind, Option.bind_eq_some_iff]
  constructor
  · rintro ⟨table, ⟨key, reached, found⟩, resolved⟩
    exact ⟨key, reached, table, found, resolved⟩
  · rintro ⟨key, reached, table, found, resolved⟩
    exact ⟨table, ⟨key, reached, found⟩, resolved⟩

/-! ## What a step numbers -/

/-- A new table has numbered nothing. -/
theorem numbered_openTable_iff {key id : Nat} {text : String} :
    store.openTable.Numbered key id text ↔ store.Numbered key id text := by
  constructor
  · rintro ⟨table, found, resolved⟩
    rcases table_of_openTable found with old | rfl
    · exact ⟨table, old, resolved⟩
    · cases resolved
  · rintro ⟨table, found, resolved⟩
    obtain ⟨bound, -⟩ := List.getElem?_eq_some_iff.mp found
    exact ⟨table, (List.getElem?_append_left bound).trans found, resolved⟩

/-- Interning a text numbers the text in its table, and nothing else anywhere. -/
theorem numbered_intern_iff {handle : Nat} {text : String} {symbol : Symbol}
    (interned : store.symbol? handle text = some (symbol, next)) {key id : Nat} {other : String} :
    next.Numbered key id other ↔
      store.Numbered key id other ∨
        store.handles[handle]? = some key ∧ id = symbol.id ∧ other = text := by
  obtain ⟨own, table, reached, found, rfl, rfl⟩ := symbol?_eq_some interned
  obtain ⟨bound, -⟩ := List.getElem?_eq_some_iff.mp found
  by_cases same : own = key
  · subst same
    simp only [Numbered, List.getElem?_set_self bound, found, Option.some.injEq, reached,
      exists_eq_left', true_and]
    exact table.resolve?_insert_iff text
  · simp only [Numbered, List.getElem?_set_ne same, reached, Option.some.injEq, same, false_and,
      or_false]

/-! ## What a run numbers -/

/-- The tables have numbered what was handed out through the handles on them, and nothing
else. -/
structure Accounts (store : SymbolStore) (handouts : List Handout) : Prop where
  given : ∀ handout ∈ handouts, handout.handle < store.handles.length
  numbered : ∀ (key id : Nat) (text : String), store.Numbered key id text ↔
    ∃ handout ∈ handouts, store.handles[handout.handle]? = some key ∧
      handout.id = id ∧ handout.text = text

/-- Another handle changes nothing for the numbers that are out. -/
theorem Accounts.append_handle (accounts : store.Accounts handouts) {key : Nat}
    (handles : next.handles = store.handles ++ [key])
    (same : ∀ (key id : Nat) (text : String),
      next.Numbered key id text ↔ store.Numbered key id text) :
    next.Accounts handouts where
  given handout member := by
    rw [handles, List.length_append]
    exact Nat.lt_add_right _ (accounts.given handout member)
  numbered other id text := by
    rw [same, accounts.numbered]
    refine exists_congr fun handout => and_congr_right fun member => ?_
    rw [handles, List.getElem?_append_left (accounts.given handout member)]

theorem Accounts.clone (accounts : store.Accounts handouts) (handle : Nat) :
    (store.clone handle).Accounts handouts := by
  unfold SymbolStore.clone
  split
  next => exact accounts.append_handle rfl fun _ _ _ => Iff.rfl
  next => exact accounts

theorem Accounts.intern (accounts : store.Accounts handouts) {handle : Nat} {text : String}
    {symbol : Symbol} (interned : store.symbol? handle text = some (symbol, next)) :
    next.Accounts (⟨handle, text, symbol.id⟩ :: handouts) := by
  have numbered := @numbered_intern_iff store next handle text symbol interned
  obtain ⟨own, table, reached, -, -, rfl⟩ := symbol?_eq_some interned
  constructor
  · rw [List.forall_mem_cons]
    exact ⟨(List.getElem?_eq_some_iff.mp reached).1, accounts.given⟩
  · intro key id other
    rw [numbered, accounts.numbered, List.exists_mem_cons_iff, or_comm]
    simp only [eq_comm]

/-- A number is resolved through a handle if it was handed out through a handle on the
same table. -/
theorem Accounts.resolve?_eq_some_iff (accounts : store.Accounts handouts) {handle id : Nat}
    {text : String} : store.resolve? handle id = some text ↔
      ∃ handout ∈ handouts, store.Shares handout.handle handle ∧
        handout.id = id ∧ handout.text = text := by
  simp only [SymbolStore.resolve?_eq_some_iff, accounts.numbered, Shares]
  constructor
  · rintro ⟨key, reached, handout, member, issued, same⟩
    exact ⟨handout, member, ⟨key, issued, reached⟩, same⟩
  · rintro ⟨handout, member, ⟨key, issued, reached⟩, same⟩
    exact ⟨key, reached, handout, member, issued, same⟩

/-- **In every run tables number what was handed out through the handles on them.** -/
theorem Run.accounts (run : Run store handouts) : store.Accounts handouts := by
  induction run with
  | start =>
      refine ⟨nofun, fun key id text => ⟨?_, nofun⟩⟩
      rintro ⟨table, found, -⟩
      cases found
  | openTable _ ih => exact ih.append_handle rfl fun _ _ _ => numbered_openTable_iff
  | clone handle _ ih => exact ih.clone handle
  | intern _ interned ih => exact ih.intern interned

/-- A table that has issued a number has issued the number zero. -/
theorem Accounts.exists_zero (accounts : store.Accounts handouts) {handout : Handout}
    (member : handout ∈ handouts) :
    ∃ first ∈ handouts, store.Shares first.handle handout.handle ∧ first.id = 0 := by
  obtain ⟨key, reached⟩ : ∃ key, store.handles[handout.handle]? = some key :=
    ⟨_, List.getElem?_eq_getElem (accounts.given handout member)⟩
  obtain ⟨table, found, resolved⟩ :=
    (accounts.numbered key handout.id handout.text).mpr ⟨handout, member, reached, rfl, rfl⟩
  obtain ⟨bound, -⟩ := List.getElem?_eq_some_iff.mp resolved
  have zero : store.Numbered key 0 table.texts[0] := ⟨table, found, List.getElem?_eq_getElem _⟩
  obtain ⟨first, listed, reached', same, -⟩ := (accounts.numbered key 0 _).mp zero
  exact ⟨first, listed, ⟨key, reached', reached⟩, same⟩

/-! ## Numbers of other tables -/

/-- Of all numbers that are out, the table behind a handle resolves its own, to the texts
that were interned under them, and no others. -/
def Discerns (store : SymbolStore) (handouts : List Handout) (handle : Nat) : Prop :=
  ∀ handout ∈ handouts, ∀ text, store.resolve? handle handout.id = some text ↔
    store.Shares handout.handle handle ∧ handout.text = text

/-- Where every number that is out came from the table, none is mistaken. -/
theorem Accounts.discerns_of_own (accounts : store.Accounts handouts) {handle : Nat}
    (own : ∀ handout ∈ handouts, store.Shares handout.handle handle) :
    store.Discerns handouts handle := by
  intro handout member text
  have resolved : store.resolve? handle handout.id = some handout.text :=
    accounts.resolve?_eq_some_iff.mpr ⟨handout, member, own handout member, rfl, rfl⟩
  rw [resolved, Option.some.injEq]
  exact (and_iff_right (own handout member)).symm

/-- Where none came from the table, all are refused. -/
theorem Accounts.discerns_of_foreign (accounts : store.Accounts handouts) {handle : Nat}
    (foreign : ∀ handout ∈ handouts, ¬ store.Shares handout.handle handle) :
    store.Discerns handouts handle := by
  intro handout member text
  refine iff_of_false (fun resolved => ?_) fun shares => foreign handout member shares.1
  obtain ⟨issuer, listed, shares, -⟩ := accounts.resolve?_eq_some_iff.mp resolved
  exact foreign issuer listed shares

/-- **A table that has issued a number discerns the numbers that are out only if all are its
own**, because another table would have issued the number zero as well. -/
theorem Accounts.shares_of_discerns (accounts : store.Accounts handouts) {handle : Nat}
    (discerns : store.Discerns handouts handle) {own other : Handout} (member : own ∈ handouts)
    (shares : store.Shares own.handle handle) (member' : other ∈ handouts) :
    store.Shares other.handle handle := by
  obtain ⟨zero, listed, ⟨key, reached, atOwn⟩, isZero⟩ := accounts.exists_zero member
  obtain ⟨zero', listed', ⟨key', reached', atOther⟩, isZero'⟩ := accounts.exists_zero member'
  -- the table's own number zero is what the other table's is resolved to
  have same : store.Shares zero.handle handle := by
    obtain ⟨key'', atOwn', behind⟩ := shares
    obtain rfl : key = key'' := Option.some.inj (atOwn.symm.trans atOwn')
    exact ⟨key, reached, behind⟩
  have resolved : store.resolve? handle zero'.id = some zero.text :=
    accounts.resolve?_eq_some_iff.mpr
      ⟨zero, listed, same, isZero.trans isZero'.symm, rfl⟩
  obtain ⟨key'', reached'', behind⟩ := ((discerns zero' listed' zero.text).mp resolved).1
  obtain rfl : key' = key'' := Option.some.inj (reached'.symm.trans reached'')
  exact ⟨key', atOther, behind⟩

/-- **A number is resolved where it was issued, and wherever the same number was.**
Through a handle the numbers are resolved that were handed out through the handles on the
same table, each to the text that was interned under it there, and no other number is.  So
the handle discerns the numbers that are out exactly if all of them came from its table or
none did. -/
theorem Run.discerns_numbers_iff (run : Run store handouts) (handle : Nat) :
    (∀ (id : Nat) (text : String), store.resolve? handle id = some text ↔
      ∃ handout ∈ handouts, store.Shares handout.handle handle ∧
        handout.id = id ∧ handout.text = text) ∧
      (store.Discerns handouts handle ↔
        (∀ handout ∈ handouts, store.Shares handout.handle handle) ∨
          ∀ handout ∈ handouts, ¬ store.Shares handout.handle handle) := by
  have accounts := run.accounts
  refine ⟨fun id text => accounts.resolve?_eq_some_iff, fun discerns => ?_, ?_⟩
  · by_cases issued : ∃ own ∈ handouts, store.Shares own.handle handle
    · obtain ⟨own, member, shares⟩ := issued
      exact .inl fun other member' => accounts.shares_of_discerns discerns member shares member'
    · exact .inr fun handout member shares => issued ⟨handout, member, shares⟩
  · rintro (own | foreign)
    · exact accounts.discerns_of_own own
    · exact accounts.discerns_of_foreign foreign

/-- A table with two handles and two texts beside a table without a text. -/
def oneSided : SymbolStore where
  tables := [((SymbolTable.empty 0).insert "a").insert "b", .empty 1]
  handles := [0, 1, 0]

/-- The numbers that it has handed out. -/
def oneSidedHandouts : List Handout := [⟨0, "b", 1⟩, ⟨2, "a", 0⟩]

theorem oneSided_run : Run oneSided oneSidedHandouts := by
  let first : SymbolStore := ⟨[(SymbolTable.empty 0).insert "a", .empty 1], [0, 1, 0]⟩
  have opened : Run ⟨[.empty 0, .empty 1], [0, 1, 0]⟩ [] := .clone 0 (.openTable (.openTable .start))
  have a : symbol? ⟨[.empty 0, .empty 1], [0, 1, 0]⟩ 2 "a" = some (⟨0, 0, "a"⟩, first) := rfl
  have b : first.symbol? 0 "b" = some (⟨0, 1, "b"⟩, oneSided) := rfl
  exact (opened.intern a).intern b

/-- The store in which the other table has a text as well. -/
def sideBySide : SymbolStore where
  tables := [((SymbolTable.empty 0).insert "a").insert "b", (SymbolTable.empty 1).insert "c"]
  handles := [0, 1, 0]

theorem sideBySide_run : Run sideBySide (⟨1, "c", 0⟩ :: oneSidedHandouts) := by
  have c : oneSided.symbol? 1 "c" = some (⟨1, 0, "c"⟩, sideBySide) := rfl
  exact oneSided_run.intern c

/-- As long as one table has no text, the numbers of the other one are resolved through
both handles on it, and refused by the table without a text. -/
theorem discerns_numbers_iff_one_sided :
    oneSided.resolve? 0 1 = some "b" ∧ oneSided.resolve? 2 1 = some "b" ∧
      oneSided.resolve? 1 0 = none ∧ oneSided.Discerns oneSidedHandouts 1 ∧
      sideBySide.resolve? 1 0 = some "c" := by
  obtain ⟨first, -⟩ := Run.discerns_numbers_iff oneSided_run 0
  obtain ⟨third, -⟩ := Run.discerns_numbers_iff oneSided_run 2
  obtain ⟨-, second⟩ := Run.discerns_numbers_iff oneSided_run 1
  obtain ⟨later, -⟩ := Run.discerns_numbers_iff sideBySide_run 1
  have foreign : ∀ handout ∈ oneSidedHandouts, ¬ oneSided.Shares handout.handle 1 := by
    rintro handout member ⟨key, reached, reached'⟩
    cases reached'
    simp only [oneSidedHandouts, List.mem_cons, List.not_mem_nil, or_false] at member
    rcases member with rfl | rfl <;> cases reached
  have discerns := second.mpr (.inr foreign)
  refine ⟨?_, ?_, ?_, discerns, ?_⟩
  · exact (first 1 "b").mpr ⟨⟨0, "b", 1⟩, by simp [oneSidedHandouts], ⟨0, rfl, rfl⟩, rfl, rfl⟩
  · exact (third 1 "b").mpr ⟨⟨0, "b", 1⟩, by simp [oneSidedHandouts], ⟨0, rfl, rfl⟩, rfl, rfl⟩
  · have member : ⟨2, "a", 0⟩ ∈ oneSidedHandouts := by simp [oneSidedHandouts]
    refine Option.eq_none_iff_forall_ne_some.mpr fun text resolved => ?_
    exact foreign _ member ((discerns _ member text).mp resolved).1
  · exact (later 0 "c").mpr ⟨⟨1, "c", 0⟩, List.mem_cons_self, ⟨1, rfl, rfl⟩, rfl, rfl⟩

/-- **Numbers of another table are not always discerned.**  Once the other table has a text
as well, it resolves the first table's number zero, to a text of its own. -/
theorem not_numbers_always_discerned :
    ¬ ∀ (store : SymbolStore) (handouts : List Handout), Run store handouts →
      ∀ handle, store.Discerns handouts handle := by
  intro always
  have member : ⟨2, "a", 0⟩ ∈ (⟨1, "c", 0⟩ :: oneSidedHandouts : List Handout) := by
    simp [oneSidedHandouts]
  have resolved : sideBySide.resolve? 1 0 = some "c" := rfl
  obtain ⟨⟨key, reached, reached'⟩, -⟩ := (always _ _ sideBySide_run 1 _ member "c").mp resolved
  cases reached
  cases reached'

end SymbolStore

end Datalog
