import Datalog.Proofs.Grammar.Starts
import Datalog.Proofs.Isolation.Unstopped
import Mathlib.Order.Basic

/-!
# Forms and what may stand behind them

A form relates the texts that a phrase may be read from to what is left of them.  Forms
are put together as phrases are, with layout between the elements.

What has been taken from a text by a form depends on what is left only through its first
character: a word ends where no character of a name follows, an angle is an operator where
no equality sign follows, and a comment may reach to the end of its line.  So another text
may stand in the place of what is left if it starts alike, or if it starts on a line of its
own (`Replaces`), and a form that holds in front of all of these is firm (`Form.Firm`).

A form is productive if some text of this form can be written in front of whatever starts
on a line of its own.  The texts that are made up for this have no digits, so no numeral is
made up.
-/

set_option autoImplicit false

namespace Datalog.Grammar

variable {text other rest stop start : List Char}

/-! ## Texts in the place of others -/

/-- A text may stand where another one stood: it starts alike, or on a line of its own. -/
def Replaces (other text : List Char) : Prop := other.head? = text.head? ∨ StartsLine other

namespace Replaces

theorem append (front : List Char) (replaces : Replaces other text) :
    Replaces (front ++ other) (front ++ text) := by
  cases front with
  | nil => exact replaces
  | cons c front => exact .inl rfl

/-- What is not so of the first character is not so of the first character in its place. -/
theorem head? {p : Char → Prop} (replaces : Replaces other text)
    (lineEnd : ∀ c, endsLine c = true → p c) (holds : ∀ c ∈ text.head?, p c) :
    ∀ c ∈ other.head?, p c := by
  intro c member
  rcases replaces with same | starts
  · exact holds c (same ▸ member)
  · exact lineEnd c (starts c member)

theorem beginsInName (replaces : Replaces other text) (ends : beginsInName text = false) :
    Grammar.beginsInName other = false := by
  rw [beginsInName_eq_false_iff] at ends ⊢
  apply replaces.head? _ ends
  intro c lineEnd
  have own : c = '\n' ∨ c = '\r' := by simpa [endsLine] using lineEnd
  rcases own with rfl | rfl <;> decide

end Replaces

/-! ## Forms -/

/-- What may be taken from the start of a text, told by the text and what is left of it. -/
abbrev Form := List Char → List Char → Prop

namespace Form

/-- A given sign. -/
def sign (spelling : String) : Form := fun text rest => text = spelling.toList ++ rest

/-- What is derived with some tree. -/
def ofTrees {τ : Type} (Derives : List Char → τ → List Char → Prop) : Form :=
  fun text rest => ∃ tree, Derives text tree rest

/-- One form behind another one, with layout between them. -/
def both (first second : Form) : Form := fun text rest =>
  ∃ stop start, first text stop ∧ Layout stop start ∧ second start rest

/-- A form that may be left out. -/
def maybe (form : Form) : Form := fun text rest => form text rest ∨ text = rest

/-- Any number of texts of one form, with layout in front of each and behind them. -/
inductive Repeats (form : Form) : List Char → List Char → Prop
  | done {text rest : List Char} (layout : Layout text rest) : Repeats form text rest
  | more {text start stop rest : List Char} (before : Layout text start)
      (item : form start stop) (others : Repeats form stop rest) : Repeats form text rest

/-- As many texts of one form as there may be. -/
def many (form : Form) : Form := Repeats form

/-- One or more texts of one form with commas between them. -/
def separated (form : Form) : Form := both form (many (both (sign ",") form))

/-- Any number of texts of one form with commas between them, and signs around them. -/
def enclosed (opening closing : String) (form : Form) : Form :=
  both (both (sign opening) (maybe (separated form))) (sign closing)

/-! ## Firm forms -/

/-- The text is of the form up to the rest, whatever stands in the place of the rest. -/
def Firm (form : Form) (text rest : List Char) : Prop :=
  ∃ passed, text = passed ++ rest ∧
    ∀ ⦃other : List Char⦄, Replaces other rest → form (passed ++ other) other

variable {form form' first second : Form}

theorem Firm.mono (smaller : form ≤ form') (firm : form.Firm text rest) : form'.Firm text rest := by
  obtain ⟨passed, spelled, holds⟩ := firm
  exact ⟨passed, spelled, fun other replaces => smaller _ _ (holds replaces)⟩

theorem firm_sign {spelling : String} (spelled : sign spelling text rest) :
    (sign spelling).Firm text rest :=
  ⟨spelling.toList, spelled, fun _ _ => rfl⟩

end Form

/-- **Layout is firm**: a comment that ends with its line ends at whatever starts a line. -/
theorem Layout.firm (layout : Layout text rest) : Form.Firm Layout text rest := by
  induction layout with
  | nothing text => exact ⟨[], rfl, fun other _ => .nothing other⟩
  | @blank c text rest isBlank _ ih =>
      obtain ⟨passed, rfl, holds⟩ := ih
      exact ⟨c :: passed, rfl, fun other replaces => .blank isBlank (holds replaces)⟩
  | @line comment text rest inLine lineEnd _ ih =>
      obtain ⟨passed, rfl, holds⟩ := ih
      refine ⟨'/' :: '/' :: (comment ++ passed), by simp, fun other replaces => ?_⟩
      have ends := (replaces.append passed).head? (fun _ => id) lineEnd
      simpa using Layout.line inLine ends (holds replaces)
  | @block comment text rest unclosed _ ih =>
      obtain ⟨passed, rfl, holds⟩ := ih
      refine ⟨'/' :: '*' :: (comment ++ '*' :: '/' :: passed), by simp, fun other replaces => ?_⟩
      simpa using Layout.block unclosed (holds replaces)

namespace Form

variable {form form' first second : Form}

/-- **Firm forms make a firm sequence.** -/
theorem Firm.both (firm : first.Firm text stop) (layout : Layout stop start)
    (firm' : second.Firm start rest) : (both first second).Firm text rest := by
  obtain ⟨front, rfl, holds⟩ := firm
  obtain ⟨between, rfl, blank⟩ := layout.firm
  obtain ⟨behind, rfl, holds'⟩ := firm'
  refine ⟨front ++ (between ++ behind), by simp, fun other replaces => ?_⟩
  have further := replaces.append behind
  refine ⟨between ++ (behind ++ other), behind ++ other, ?_, blank further, holds' replaces⟩
  simpa using holds (further.append between)

theorem Firm.maybe (firm : form.Firm text rest) : (maybe form).Firm text rest :=
  firm.mono fun _ _ => .inl

theorem firm_maybe_nothing (text : List Char) : (maybe form).Firm text text :=
  ⟨[], rfl, fun _ _ => .inr rfl⟩

theorem firm_many_nothing (text : List Char) : (many form).Firm text text :=
  ⟨[], rfl, fun other _ => .done (.nothing other)⟩

theorem Firm.many (layout : Layout text start) (firm : form.Firm start stop)
    (others : (many form).Firm stop rest) : (many form).Firm text rest := by
  obtain ⟨before, rfl, blank⟩ := layout.firm
  obtain ⟨front, rfl, holds⟩ := firm
  obtain ⟨behind, rfl, more⟩ := others
  refine ⟨before ++ (front ++ behind), by simp, fun other replaces => ?_⟩
  have further := replaces.append behind
  have repeats : many form (before ++ (front ++ (behind ++ other))) other :=
    .more (blank (further.append front)) (holds further) (more replaces)
  simpa using repeats

theorem Repeats.of_layout (layout : Layout text start) (repeats : Repeats form start rest) :
    Repeats form text rest := by
  cases repeats with
  | done layout' => exact .done (layout.trans layout')
  | more before item others => exact .more (layout.trans before) item others

/-! ## Productive forms -/

/-- A text without digits. -/
def Undigited (text : List Char) : Prop := ∀ c ∈ text, c.isDigit = false

/-- Some text of the form can be written in front of every text without digits that starts
on a line of its own, and no digits are needed. -/
def Productive (form : Form) : Prop :=
  ∀ ⦃rest : List Char⦄, StartsLine rest → Undigited rest → ∃ text, Undigited text ∧ form text rest

theorem undigited_newline (undigited : Undigited text) : Undigited ('\n' :: text) :=
  List.forall_mem_cons.mpr ⟨by decide, undigited⟩

theorem startsLine_newline (text : List Char) : StartsLine ('\n' :: text) := by
  intro c member
  obtain rfl : '\n' = c := by simpa using member
  rfl

theorem layout_newline (text : List Char) : Layout ('\n' :: text) text :=
  .blank (by simp) (.nothing text)

/-- A form is productive if a fixed text of this form can be written in front of a line. -/
theorem productive_of (sample : String) (undigited : Undigited sample.toList)
    (holds : ∀ ⦃rest : List Char⦄, StartsLine rest → form (sample.toList ++ rest) rest) :
    form.Productive := by
  intro rest starts undigited'
  refine ⟨sample.toList ++ rest, ?_, holds starts⟩
  intro c member
  exact (List.mem_append.mp member).elim (undigited c) (undigited' c)

theorem Productive.mono (smaller : form ≤ form') (productive : form.Productive) :
    form'.Productive := by
  intro rest starts undigited
  obtain ⟨text, undigited', holds⟩ := productive starts undigited
  exact ⟨text, undigited', smaller _ _ holds⟩

/-- What comes second is written on a line of its own. -/
theorem Productive.both (productive : first.Productive) (productive' : second.Productive) :
    (both first second).Productive := by
  intro rest starts undigited
  obtain ⟨start, undigited', holds'⟩ := productive' starts undigited
  obtain ⟨text, undigited'', holds⟩ :=
    productive (startsLine_newline start) (undigited_newline undigited')
  exact ⟨text, undigited'', _, start, holds, layout_newline start, holds'⟩

theorem productive_maybe (form : Form) : (maybe form).Productive :=
  fun rest _ undigited => ⟨rest, undigited, .inr rfl⟩

theorem productive_many (form : Form) : (many form).Productive :=
  fun rest _ undigited => ⟨rest, undigited, .done (.nothing rest)⟩

end Form

end Datalog.Grammar
