import Datalog.Proofs.Printer.Derived
import Datalog.Proofs.RoundTrip
import Datalog.Proofs.Session

/-!
# The program of a session is always valid

Lines may be anything: malformed, full of redeclarations, or commands.  Whatever they
are, the program that they leave can be written down and read back
(`Session.program_always_valid`).  A line does one of three things
(`Session.enter_leaves`).  If it is read, the relations and the clauses of its unit come
behind those of the session, and since the program of any text is well formed, so is the
program of the session (`Session.Sound.enter`).  All symbols of the session belong to its
one table, so a new table tells none of them from its own by number.
-/

set_option autoImplicit false

namespace Datalog

namespace Session

/-! ## What a line does -/

/-- What a line leaves of a session. -/
inductive Leaves (preferences : Preferences) (session : Session) (line : List Char) :
    Session → Prop where
  /-- Showing the program changes nothing. -/
  | print (asked : Text.trim line = ".print".toList) : Leaves preferences session line session
  /-- Clearing the program keeps the table. -/
  | clear (asked : Text.trim line = ".clear".toList) :
      Leaves preferences session line { session with program := .empty }
  /-- Of a text the relations with new names and all clauses are appended. -/
  | read {next : Session} (asked : Text.trim line ∉ [".print".toList, ".clear".toList])
      (relations : next.program.relations =
        (preferences.unitOf (Text.trim line) session.symbols).program.relations.foldl
          Relation.enter session.program.relations)
      (clauses : next.program.clauseList = session.program.clauseList ++
        (preferences.unitOf (Text.trim line) session.symbols).program.clauseList)
      (symbols : next.symbols = (preferences.unitOf (Text.trim line) session.symbols).symbols) :
      Leaves preferences session line next

/-- **A line shows the program, clears it, or is read.** -/
theorem enter_leaves (preferences : Preferences) (session : Session) (line : List Char) :
    Leaves preferences session line (session.enter preferences line).session := by
  by_cases print : Text.trim line = ".print".toList
  · have request : Request.ofLine line = .print := if_pos print
    rw [enter, request]
    exact .print print
  by_cases clear : Text.trim line = ".clear".toList
  · have request : Request.ofLine line = .clear := (if_neg print).trans (if_pos clear)
    rw [enter, request]
    exact .clear clear
  have asked : Text.trim line ∉ [".print".toList, ".clear".toList] := by
    rw [List.mem_cons, List.mem_singleton, not_or]
    exact ⟨print, clear⟩
  have merged := merge_tally session.program (preferences.unitOf (Text.trim line) session.symbols)
  rw [(enter_of_read preferences session asked).1]
  exact .read asked (congrArg Tally.relations merged) (congrArg Tally.clauses merged)
    (congrArg Tally.symbols merged)

/-! ## What every line keeps -/

/-- The program of a session can be written down, and its symbols belong to the table
with the given key. -/
structure Sound (key : Nat) (session : Session) : Prop where
  numbered : session.symbols.key = key
  wellFormed : session.program.wellFormed = true
  owned : ∀ clause ∈ session.program.clauseList, TranslationUnit.Owned key clause

/-- **Every line keeps a session sound.** -/
theorem Sound.enter {key : Nat} {session : Session} (sound : session.Sound key)
    (preferences : Preferences) (line : List Char) :
    (session.enter preferences line).session.Sound key := by
  obtain ⟨rfl, wellFormed, owned⟩ := sound
  have leaves := session.enter_leaves preferences line
  generalize (session.enter preferences line).session = next at leaves ⊢
  cases leaves with
  | print => exact ⟨rfl, wellFormed, owned⟩
  | clear => exact ⟨rfl, rfl, fun clause member => by cases member⟩
  | read asked relations clauses symbols =>
      have read := TranslationUnit.ofText_wellFormed (Text.trim line) session.symbols
        { quiet := preferences.quiet } { enabled := preferences.debug }
      have holds := preferences.unitOf_holds (Text.trim line) session.symbols
      rw [Program.wellFormed, Bool.and_eq_true, List.all_eq_true, List.all_eq_true]
        at wellFormed read
      refine ⟨symbols ▸ holds.numbered, ?_, fun clause member => ?_⟩
      · rw [Program.wellFormed, Bool.and_eq_true, List.all_eq_true, List.all_eq_true, relations,
          clauses]
        refine ⟨fun relation member => ?_, fun clause member => ?_⟩
        · rcases Relation.mem_of_mem_foldl_enter member with known | new
          · exact wellFormed.1 relation known
          · exact read.1 relation new
        · rcases List.mem_append.mp member with known | new
          · exact wellFormed.2 clause known
          · exact read.2 clause new
      · rw [clauses] at member
        rcases List.mem_append.mp member with known | new
        · exact owned clause known
        · exact holds.owned clause new

/-- Lines keep a session sound. -/
theorem Sound.enterAll {key : Nat} {session : Session} (sound : session.Sound key)
    (preferences : Preferences) (lines : List (List Char)) :
    (session.enterAll preferences lines).Sound key := by
  induction lines generalizing session with
  | nil => exact sound
  | cons line rest ih => exact ih (sound.enter preferences line)

/-- A session in which nothing has been entered is sound. -/
theorem sound_start (key : Nat) : Sound key { symbols := .empty key } :=
  ⟨rfl, rfl, fun clause member => by cases member⟩

/-- The program of a sound session is read back from its text. -/
theorem Sound.readsBack {key : Nat} {session : Session} (sound : session.Sound key) {table : Nat}
    (new : table ≠ key) (preferences : Preferences) :
    ReadsBackAs (preferences.unitOf session.program.print.toList (.empty table))
      session.program :=
  Program.readsBack_of_owned sound.wellFormed sound.owned new preferences

/-- Only clearing the program takes something out of it, and showing the program changes
nothing. -/
theorem Leaves.keeps {preferences : Preferences} {session next : Session} {line : List Char}
    (leaves : Leaves preferences session line next) :
    (Text.trim line ≠ ".clear".toList →
      session.program.relations <+: next.program.relations ∧
        session.program.clauseList <+: next.program.clauseList) ∧
      (Text.trim line = ".print".toList → next = session) := by
  cases leaves with
  | print => exact ⟨fun _ => ⟨List.prefix_rfl, List.prefix_rfl⟩, fun _ => rfl⟩
  | clear asked =>
      refine ⟨fun other => absurd asked other, fun print => ?_⟩
      exact absurd (asked.symm.trans print) (by decide)
  | read asked relations clauses =>
      refine ⟨fun _ => ⟨?_, ?_⟩, fun print => absurd (print ▸ List.mem_cons_self) asked⟩
      · rw [relations, Relation.foldl_enter_eq]
        exact List.prefix_append _ _
      · rw [clauses]
        exact List.prefix_append _ _

/-- **The program of a session is always valid.**  Behind any lines its relations have
distinct names, and it is read back from its text with any new table.  Whatever the next
line is, unless it clears the program, what was accepted stays in front of what is
accepted, and if it shows the program nothing changes. -/
theorem program_always_valid (preferences : Preferences) (key : Nat) (lines : List (List Char)) :
    let session := enterAll preferences { symbols := .empty key } lines
    (session.program.relations.map Relation.name).Nodup ∧
      (∀ (table : Nat) (preferences' : Preferences), table ≠ key →
        ReadsBackAs (preferences'.unitOf session.program.print.toList (.empty table))
          session.program) ∧
      ∀ line : List Char,
        (Text.trim line ≠ ".clear".toList →
          session.program.relations <+:
              (session.enter preferences line).session.program.relations ∧
            session.program.clauseList <+:
              (session.enter preferences line).session.program.clauseList) ∧
          (Text.trim line = ".print".toList →
            (session.enter preferences line).session = session) := by
  intro session
  have sound : session.Sound key := (sound_start key).enterAll preferences lines
  refine ⟨session.program.distinct, fun table preferences' new => sound.readsBack new preferences',
    fun line => ?_⟩
  exact (session.enter_leaves preferences line).keeps

/-- A redeclaration behind a malformed statement, and an unusual escape. -/
theorem program_always_valid_redeclaring :
    let lines : List (List Char) :=
      [".decl A(x:symbol)".toList, " A(1 2). .decl B,A() brie".toList, "A(\"\\q\").".toList]
    let session := enterAll {} { symbols := .empty 0 } lines
    ReadsBackAs
        (({} : Preferences).unitOf session.program.print.toList (.empty 1)) session.program ∧
      session.program.print =
        ".decl A(x:symbol)\n.decl B() brie\nA(\"\\\\q\").\n" := by
  intro lines session
  exact ⟨(program_always_valid {} 0 lines).2.1 1 {} (by decide), by decide +kernel⟩

end Session

end Datalog
